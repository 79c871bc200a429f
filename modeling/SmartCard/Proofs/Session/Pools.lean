-- SUMMARY: Pool accounting: what the arrays of a card take from its pools, and when there is room for one more.
import SmartCard.Proofs.Image.Adoption
import SmartCard.Proofs.Session.Allocation

/-!
# Pools in a session

Bytes are charged to a pool where a command makes an array and where a card takes in the arrays of
an image. In either case the sums are those of the natural numbers, so that no pool is ever charged
with more than its capacity.
-/

namespace SmartCard

variable {μ : Type} {c : Config} {d : Descriptor}

/-- The accounts of a pool: it is charged with the arrays of its lifetime, which fit its capacity,
and what is left is the difference. -/
structure Store.Accounts (c : Config) (s : Store) (l : Lifetime) : Prop where
  used : (s.pools.of l).used.toNat = s.table.bytesOf l
  fits : s.table.bytesOf l ≤ (c.poolCapacity l).toNat
  left : (s.pools.of l).available.toNat = (c.poolCapacity l).toNat - s.table.bytesOf l

theorem Store.Sound.accounts {s : Store} (h : s.Sound c) (l : Lifetime) : s.Accounts c l := by
  refine ⟨h.used_eq l, h.used_le l, ?_⟩
  rw [Pool.toNat_available, h.used_eq, h.capacity_eq]
  rw [h.used_eq, h.capacity_eq]
  exact h.used_le l

/-- A store that has taken in arrays from an image is charged with them, and with nothing else. -/
theorem Image.used_adoptArrays {arrays : List ImageArray} {s : Store}
    (hs : adoptArrays (.empty c) arrays = .ok s) (l : Lifetime) :
    (s.pools.of l).used.toNat = (arrays.map (ImageArray.share l)).sum ∧
      (arrays.map (ImageArray.share l)).sum ≤ (c.poolCapacity l).toNat := by
  have hsound := sound_adoptArrays (.empty c) hs
  have hadopted := (adopted_of_adoptArrays (.empty c) hs).2
  have hempty : (Store.empty c).table.bytesOf l = 0 := rfl
  have hbytes := hadopted.bytesOf l
  rw [hempty, Nat.zero_add] at hbytes
  have haccounts := hsound.accounts l
  rw [← hbytes]
  exact ⟨haccounts.used, haccounts.fits⟩

namespace Session

variable [Matcher μ] {s : Session μ} {command : Command μ}

/-- What a card answers when it is asked how much of a pool is left. -/
theorem Sound.result_available (h : s.Sound) (l : Lifetime) :
    ∃ n, (Session.step (.availableMemoryExtended l.memoryType) s).result = .ok (.size n) ∧
      n.toNat = (s.card.config.poolCapacity l).toNat - s.card.memory.store.table.bytesOf l := by
  refine ⟨(s.card.memory.store.pools.of l).available, ?_, (h.memory.store.accounts l).left⟩
  have hanswer : s.card.availableMemoryExtended l.memoryType =
      .ok (s.card.memory.store.pools.of l).available := by
    unfold Card.availableMemoryExtended Memory.available
    rw [Lifetime.ofMemoryType?_memoryType]
  show ((Reply.size <$> askCard (·.availableMemoryExtended l.memoryType)).exec s).1 = _
  rw [Act.exec_map, askCard, Act.exec_query, hanswer]
  rfl

/-- Pool accounting is exact. Each pool is charged with the bytes of the arrays of its lifetime,
which never exceed its capacity, and a card that is asked answers with the difference. An acceptable
command makes its array just when a reference and the bytes are left, and these bytes are what is
charged. A command for an array that fails otherwise changes nothing, and no other command but a
restoration touches a pool. A restored card takes in the arrays of its image one by one, and is
charged with exactly those that it has taken in so far. -/
theorem pool_accounting (hreachable : s.Reachable) :
    (∀ l, s.card.memory.store.Accounts s.card.config l ∧
      ∃ n, (step (.availableMemoryExtended l.memoryType) s).result = .ok (.size n) ∧
        n.toNat = (s.card.config.poolCapacity l).toNat - s.card.memory.store.table.bytesOf l) ∧
    (∀ (command : Command μ) d, command.Makes s.card.config d →
      (s.card.memory.store.Admits s.card.config d →
        ∃ array, command.Answers s array (step command s).result ∧
          ∀ l, ((step command s).state.card.memory.store.pools.of l).used.toNat =
            (s.card.memory.store.pools.of l).used.toNat +
              if l = d.lifetime then d.byteLength else 0) ∧
      (¬s.card.memory.store.Admits s.card.config d →
        (∃ e, (step command s).result = .error e) ∧ (step command s).state.card = s.card)) ∧
    (∀ command : Command μ, command.allocates = true →
      (∀ d, ¬command.Makes s.card.config d) →
        (∃ e, (step command s).result = .error e) ∧ (step command s).state.card = s.card) ∧
    (∀ command : Command μ, command.allocates = false → command.isRestore = false →
      ∀ l, (step command s).state.card.memory.store.pools.of l =
        s.card.memory.store.pools.of l) ∧
    (∀ config bytes e, (step (.restore config bytes) s).result = .error e →
      (step (.restore config bytes) s).state.card = s.card) ∧
    (∀ config arrays store, Image.adoptArrays (.empty config) arrays = .ok store →
      ∀ l, (store.pools.of l).used.toNat = (arrays.map (ImageArray.share l)).sum ∧
        (arrays.map (ImageArray.share l)).sum ≤ (config.poolCapacity l).toNat) := by
  have h := hreachable.sound
  refine ⟨fun l => ⟨h.memory.store.accounts l, h.result_available l⟩, fun _ _ hmakes => ?_,
    fun _ hallocates hnone => h.refused_of_not_makes hallocates hnone,
    fun _ hallocates hrestore => (h.accounts_step_of_not_allocates hrestore hallocates).1, ?_,
    fun _ _ _ hs l => Image.used_adoptArrays hs l⟩
  · refine ⟨fun hadmits => ?_, h.refused_of_not_admits hmakes⟩
    obtain ⟨array, hanswers, hadds⟩ := h.made_of_admits hmakes hadmits
    exact ⟨array, hanswers, hadds.used⟩
  · intro config bytes e he
    rw [result_step_restore] at he
    rw [card_step_restore]
    rcases hr : ((Card.restore config bytes).exec s.card).1 with e' | _
    · exact card_of_restore_error hr
    · rw [hr] at he
      cases he

/-- A card with two bytes of persistent memory left, in an open transaction. -/
def tight : Session ConstantScore :=
  (run (.start (.blank { persistentCapacity := 10 })) [.makePersistent .int 2, .begin]).2

/-- The last two bytes are there to be had, but not a third. -/
theorem pool_accounting_tight :
    (step (.makePersistent .short 1) tight).result = .ok (.array ⟨2⟩) ∧
      ((step (.makePersistent .short 1) tight).state.card.memory.store.pools.of .persistent).used =
        10 ∧
      (step (.makePersistent .byte 3) tight).state.card = tight.card := by
  have hreachable : tight.Reachable :=
    (Reachable.start (c := { persistentCapacity := 10 }) rfl).run _
  obtain ⟨_, hlaw, _⟩ := pool_accounting hreachable
  have hshort := (hlaw (.makePersistent .short 1) _ (.persistent rfl)).1
    ⟨by decide +kernel, fun hexhausted => hexhausted rfl⟩
  have hbytes := (hlaw (.makePersistent .byte 3) _ (.persistent rfl)).2
    fun hadmits => absurd hadmits.room (by decide +kernel)
  refine ⟨rfl, ?_, hbytes.2⟩
  obtain ⟨_, _, hused⟩ := hshort
  exact UInt32.toNat_inj.mp (hused .persistent)

end Session

end SmartCard
