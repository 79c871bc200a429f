-- SUMMARY: Atomic and non-atomic transfers from one state: how each can end, and that only the protection tells them apart.
import SmartCard.Proofs.Range.Transfers

/-!
# Variants of transfers

A copy or a fill comes as an atomic and as a non-atomic command. Without a tear the atomic one can
fail for want of room in the commit buffer, the non-atomic one since its destination is to be
written whole, and neither as the other does. In everything else the two agree.
-/

namespace SmartCard.Session

variable {μ : Type} [Matcher μ] {s : Session μ} {t : Range.Transfer} {o : Range.Output}
  {d : Descriptor} {e : Fault}

/-- Checks refuse both variants alike, and without touching the card. -/
theorem transfer_refused (h : s.Sound) (he : t.output s.card.memory.store .atomic = .error e)
    (p : Range.Protection) :
    (step (t.command p) s).result = .error e ∧ (step (t.command p) s).state.card = s.card := by
  obtain ⟨r, hended, hresult, hcard⟩ := ended_transfer h p t
  rw [hresult, hcard]
  cases hended with
  | refused he' =>
    rw [he, Except.error.injEq] at he'
    subst he'
    exact ⟨rfl, rfl⟩
  | guarded ho | lost ho | full ho | done ho =>
    rw [he] at ho
    cases ho

/-- How the two variants end when power lasts and the checks pass. Each can fail in a way of its
own; a variant that does not returns the last index of the output and leaves its bytes. -/
structure Passes (s : Session μ) (t : Range.Transfer) (o : Range.Output) (d : Descriptor) :
    Prop where
  atomic : (∃ e, (step (t.command .atomic) s).result = .error e ∧ e.isBufferFull = true) ∨
    (step (t.command .atomic) s).result = .ok (.short (Int16.ofNat o.last)) ∧
      (step (t.command .atomic) s).state.card.memory.store =
        s.card.memory.store.withBytes t.destination o.offset o.bytes
  nonAtomic : ((step (t.command .nonAtomic) s).result = .error (.nonAtomicWrite t.destination) ∧
      s.card.memory.store.descriptor? t.destination = some d ∧ d.requiresAtomicWrites = true) ∨
    (step (t.command .nonAtomic) s).result = .ok (.short (Int16.ofNat o.last)) ∧
      (step (t.command .nonAtomic) s).state.card.memory.store =
        s.card.memory.store.withBytes t.destination o.offset o.bytes

theorem transfer_passes (h : s.Sound) (huntorn : s.card.memory.store.tear = none)
    (ho : t.output s.card.memory.store .atomic = .ok o) : ∃ d, Passes s t o d := by
  obtain ⟨d, hfits⟩ := Range.Transfer.fits_of_output h.memory.store ho
  refine ⟨d, ⟨?_, ?_⟩⟩
  · obtain ⟨r, hended, hresult, hcard⟩ := ended_transfer h .atomic t
    rw [hresult, hcard]
    cases hended with
    | refused he =>
      rw [ho] at he
      cases he
    | guarded _ _ hp => cases hp
    | lost _ _ htear =>
      rw [huntorn] at htear
      cases htear
    | full _ _ _ _ _ _ hfull => exact .inl ⟨_, rfl, hfull⟩
    | done ho' _ _ hstore =>
      rw [ho, Except.ok.injEq] at ho'
      subst ho'
      exact .inr ⟨rfl, hstore⟩
  · obtain ⟨r, hended, hresult, hcard⟩ := ended_transfer h .nonAtomic t
    rw [hresult, hcard]
    cases hended with
    | refused he =>
      rw [ho] at he
      cases he
    | guarded _ hfits' _ hatomic =>
      have hd := hfits'.destination
      rw [hfits.destination, Option.some.injEq] at hd
      subst hd
      exact .inl ⟨rfl, hfits.destination, hatomic⟩
    | lost _ _ htear =>
      rw [huntorn] at htear
      cases htear
    | full _ _ hp => cases hp
    | done ho' _ _ hstore =>
      rw [ho, Except.ok.injEq] at ho'
      subst ho'
      exact .inr ⟨rfl, hstore⟩

/-- The variants of a copy or a fill differ in nothing but protection. From a state without an armed
tear, whatever the transaction: if both succeed, they return the same index and leave the same
store, with the bytes and digests of every array. If only the atomic one succeeds, the other reports
a security fault, and its destination is persistent and integrity-sensitive. If only the non-atomic
one succeeds, the other finds the commit buffer full. Any other fault of one is the fault of
both. -/
theorem variants_agree (hreachable : s.Reachable) (huntorn : s.card.memory.store.tear = none)
    (t : Range.Transfer) :
    let a := step (t.command .atomic) s
    let b := step (t.command .nonAtomic) s
    (∀ x y, a.result = .ok x → b.result = .ok y →
      x = y ∧ a.state.card.memory.store = b.state.card.memory.store) ∧
    (∀ x e, a.result = .ok x → b.result = .error e →
      e = .nonAtomicWrite t.destination ∧ e.errorClass = .security ∧
        ∃ d, s.card.descriptor t.destination = .ok d ∧ d.sensitive = true ∧
          d.lifetime.isPersistent = true) ∧
    (∀ y e, b.result = .ok y → a.result = .error e → e.isBufferFull = true) ∧
    (∀ e, a.result = .error e → e.isBufferFull = false → b.result = .error e) ∧
    (∀ e, b.result = .error e → e ≠ .nonAtomicWrite t.destination → a.result = .error e) := by
  have hs := hreachable.sound
  dsimp only
  rcases ho : t.output s.card.memory.store .atomic with e | o
  · have ha := (transfer_refused hs ho .atomic).1
    have hb := (transfer_refused hs ho .nonAtomic).1
    simp [ha, hb]
  · obtain ⟨d, hatomic, hnonAtomic⟩ := transfer_passes hs huntorn ho
    rcases hatomic with ⟨e, ha, hfull⟩ | ⟨ha, hleft⟩ <;>
      rcases hnonAtomic with ⟨hb, hd, hwhole⟩ | ⟨hb, hleft'⟩
    · simp [ha, hb, hfull]
    · simp [ha, hb, hfull]
    · obtain ⟨hsensitive, hpersistent⟩ := Bool.and_eq_true_iff.mp hwhole
      have hd' := (Card.descriptor_eq_ok_iff hs.memory.store).mpr hd
      have hclass : (Fault.nonAtomicWrite t.destination).errorClass = .security := rfl
      simp [ha, hb, hd', hsensitive, hpersistent, hclass]
    · simp [ha, hb, hleft, hleft']

/-- A card with one array, in a transaction. -/
def oneArrayBegun : Session ConstantScore := (run oneArray [.begin]).2

/-- Both variants fill the array, and leave the same store. -/
theorem variants_agree_oneArray :
    (step (.fill .atomic ⟨1⟩ 1 3 ⟨1⟩ 3) oneArrayBegun).result = .ok (.short 4) ∧
      (step (.fill .nonAtomic ⟨1⟩ 1 3 ⟨1⟩ 3) oneArrayBegun).result = .ok (.short 4) ∧
      (step (.fill .atomic ⟨1⟩ 1 3 ⟨1⟩ 3) oneArrayBegun).state.card.memory.store =
        (step (.fill .nonAtomic ⟨1⟩ 1 3 ⟨1⟩ 3) oneArrayBegun).state.card.memory.store := by
  have hreachable : oneArrayBegun.Reachable := (reachable_fresh.run _).run _
  have hatomic : (step (.fill .atomic ⟨1⟩ 1 3 ⟨1⟩ 3) oneArrayBegun).result =
      .ok (.short 4) := by rfl
  have hnonAtomic : (step (.fill .nonAtomic ⟨1⟩ 1 3 ⟨1⟩ 3) oneArrayBegun).result =
      .ok (.short 4) := by rfl
  obtain ⟨hsame, _⟩ := variants_agree hreachable rfl (.fill ⟨1⟩ 1 3 ⟨1⟩ 3)
  exact ⟨hatomic, hnonAtomic, (hsame _ _ hatomic hnonAtomic).2⟩

end SmartCard.Session
