-- SUMMARY: What integrity checks tell: no false alarms, and corruption that stays detected until the array is rewritten.
import SmartCard.Proofs.Memory.Seals
import SmartCard.Proofs.Session.Histories

/-!
# Integrity checks

The check of a sensitive array compares its payload with its digest. Without a flip of bits it
succeeds on every sensitive array, whatever happens to the card (`Session.no_false_alarm`). Once it
fails it goes on failing until the array is rewritten in any part, since whatever rewrites an array
also renews its digest (`Session.corruption_persists`).
-/

namespace SmartCard

variable {μ : Type} {c : Config}

/-! ## Checks -/

namespace Integrity

variable {store : Store} {array : ArrayRef} {cell : Cell}

theorem sensitiveCell_eq_ok_iff (h : store.Sound c) :
    sensitiveCell store array = .ok cell ↔
      store.table.find? array = some cell ∧ cell.descriptor.sensitive = true := by
  unfold sensitiveCell
  rw [bind_eq_ok_iff]
  simp only [h.cell_iff]
  constructor
  · rintro ⟨found, hfound, hsensitive⟩
    split at hsensitive
    next hs =>
      cases hsensitive
      exact ⟨hfound, hs⟩
    next => cases hsensitive
  · rintro ⟨hfound, hs⟩
    exact ⟨cell, hfound, if_pos hs⟩

/-- Looking a sensitive array up does not compare its digest. -/
theorem sensitiveCell_ne_digestMismatch (store : Store) (array other : ArrayRef) :
    sensitiveCell store array ≠ .error (.digestMismatch other) := by
  unfold sensitiveCell Store.cell
  split
  · nofun
  · split
    next found _ =>
      show (if found.descriptor.sensitive then Except.ok found else _) ≠ _
      split <;> nofun
    next => nofun

theorem isSensitive_eq_ok_iff (h : store.Sound c) :
    isSensitive store array = .ok true ↔
      ∃ cell, store.table.find? array = some cell ∧ cell.descriptor.sensitive = true := by
  unfold isSensitive Store.descriptor
  rcases hcell : store.cell .sensitive array with e | found
  · have hnone : ∀ cell, store.table.find? array ≠ some cell := fun cell hfound => by
      rw [h.cell_iff.mpr hfound] at hcell
      cases hcell
    simp [Except.map, hnone]
  · simp [Except.map, h.cell_iff.mp hcell]

end Integrity

namespace Session

variable [Matcher μ] {s : Session μ} {array : ArrayRef} {cell : Cell}

theorem result_assertIntegrity (array : ArrayRef) (s : Session μ) :
    (step (.assertIntegrity array) s).result =
      match Integrity.sensitiveCell s.card.memory.store array with
      | .error e => .error e
      | .ok cell => if cell.isIntact then .ok .done else .error (.digestMismatch array) := by
  have hexec : (step (.assertIntegrity array) s).result =
      ((Integrity.check array).exec s.card.memory).1.map fun _ => Reply.done := by
    show ((perform (.assertIntegrity array)).exec s).1 = _
    rw [perform, Act.exec_map]
    rfl
  rw [hexec, Integrity.check, Act.exec_bind, Act.exec_query]
  rcases Integrity.sensitiveCell s.card.memory.store array with e | cell
  · rfl
  · rcases hintact : cell.isIntact <;> simp [hintact] <;> rfl

/-- A check succeeds on the sensitive arrays whose cell is intact. -/
theorem Sound.assertIntegrity_eq_done_iff (h : s.Sound) :
    (Session.step (.assertIntegrity array) s).result = .ok .done ↔
      ∃ cell, s.card.memory.store.table.find? array = some cell ∧
        cell.descriptor.sensitive = true ∧ cell.isIntact = true := by
  rw [result_assertIntegrity]
  simp only [← and_assoc, ← Integrity.sensitiveCell_eq_ok_iff h.memory.store]
  rcases Integrity.sensitiveCell s.card.memory.store array with e | cell <;> simp

/-- A check reports corruption of the sensitive arrays whose cell is not intact. -/
theorem Sound.assertIntegrity_eq_digestMismatch_iff (h : s.Sound) :
    (Session.step (.assertIntegrity array) s).result = .error (.digestMismatch array) ↔
      ∃ cell, s.card.memory.store.table.find? array = some cell ∧
        cell.descriptor.sensitive = true ∧ cell.isIntact = false := by
  rw [result_assertIntegrity]
  simp only [← and_assoc, ← Integrity.sensitiveCell_eq_ok_iff h.memory.store]
  rcases hcell : Integrity.sensitiveCell s.card.memory.store array with e | cell
  · have hne := Integrity.sensitiveCell_ne_digestMismatch s.card.memory.store array array
    rw [hcell] at hne
    simpa using hne
  · simp

/-! ## What commands rewrite -/

/-- Whether a command makes bytes of an array anew: by an operation that does so, or by restoring an
image, if bytes of the array are rolled back then or it is cleared. -/
def Rewrites (array : ArrayRef) (s : Session μ) (command : Command μ) : Prop :=
  match command with
  | .restore config bytes =>
    ((Card.restore config bytes).exec s.card).1 = .ok () ∧
      (s.card.memory.store.IsTransient array ∨
        ∃ image, Image.ofBytes bytes = .ok image ∧ ∃ u ∈ image.pending, u.array = array)
  | _ => ∃ step ∈ commandTrace s command, step.2.Rewrites array step.1

variable {command : Command μ} {sessions : List (Session μ)}

omit [Matcher μ] in
theorem exists_pending_capture_iff (m : Memory) (array : ArrayRef) :
    (∃ u ∈ (Image.capture m).pending, u.array = array) ↔ m.Logs array := by
  simp [Image.capture, Image.captureUndo, Memory.Logs]

/-- A command seals what it rewrites, and leaves the cell of the array alone otherwise. -/
theorem Sound.resealed_step (h : s.Sound)
    (hcell : s.card.memory.store.table.find? array = some cell)
    (hflip : ¬command.FlipsBits array) (hfrom : command.RestoresFrom sessions)
    (hsessions : ∀ p ∈ sessions, p.Sound ∧ p.card.memory.store.table.find? array = some cell) :
    Store.Resealed array (Rewrites array s command) s.card.memory.store
      (Session.step command s).state.card.memory.store := by
  have hd : s.card.memory.store.descriptor? array = some cell.descriptor :=
    Table.descriptor?_eq_some_iff.mpr ⟨cell, hcell, rfl⟩
  rcases hrestore : command.isRestore with _ | _
  · have hrewrites : Rewrites array s command ↔
        ∃ step ∈ commandTrace s command, step.2.Rewrites array step.1 := by
      cases command
      case restore => cases hrestore
      all_goals exact Iff.rfl
    have hask := Command.mayAsk_request h.memory.store command
    rw [h.card_step hrestore]
    refine Store.Resealed.congr ?_ hrewrites
    unfold commandTrace
    rcases hr : command.request s with e | ops
    · exact (Store.Resealed.refl array _).congr (by simp)
    · refine Operation.resealed_run h.memory h.settled hd fun op hop byte mask heq => hflip ?_
      have hmay := hask ops hr op hop
      rw [heq] at hmay
      exact hmay.flipsBits
  · cases command
    case restore config bytes =>
      obtain ⟨p, hp, rfl⟩ := hfrom
      obtain ⟨hsound, hsame⟩ := hsessions p hp
      rw [card_step_restore]
      rcases hok : ((Card.restore config p.card.image).exec s.card).1 with e | _
      · rw [card_of_restore_error hok]
        exact (Store.Resealed.refl array _).congr (by simp [Rewrites, hok])
      · have htable := Card.table_restored hsound.memory hok
        have hrecovered := hsound.memory.resealed_recovered array
        have htransient : p.card.memory.store.IsTransient array ↔
            s.card.memory.store.IsTransient array := by
          have hd' : p.card.memory.store.descriptor? array = some cell.descriptor :=
            Table.descriptor?_eq_some_iff.mpr ⟨cell, hsame, rfl⟩
          unfold Store.IsTransient
          rw [hd, hd']
        refine Store.Resealed.congr (p := p.card.memory.Logs array ∨
          p.card.memory.store.IsTransient array) ⟨?_, ?_⟩ ?_
        · rw [htable, hcell, ← hsame]
          exact hrecovered.kept
        · rw [htable]
          exact hrecovered.rewritten
        · simp [Rewrites, hok, Card.ofBytes_image hok, exists_pending_capture_iff, htransient,
            or_comm]
    all_goals cases hrestore

/-- A card without flipped bits stays sealed, also when it is restored from a sealed one. -/
theorem Sound.sealed_step (h : s.Sound) (hsealed : s.card.memory.store.Sealed)
    (hflip : ∀ array, ¬command.FlipsBits array) (hfrom : command.RestoresFrom sessions)
    (hsessions : ∀ p ∈ sessions, p.Sound ∧ p.card.memory.store.Sealed) :
    (Session.step command s).state.card.memory.store.Sealed := by
  rcases hrestore : command.isRestore with _ | _
  · have hask := Command.mayAsk_request h.memory.store command
    rw [h.card_step hrestore]
    rcases hr : command.request s with e | ops
    · exact hsealed
    · obtain ⟨⟨_, _, hend⟩, _⟩ := Operation.kept_run (P := fun m => m.store.Sealed)
        (fun op hop m hm hs hp => Operation.sealed_act hm hs hp fun array byte mask heq => by
          have hmay := hask ops hr op hop
          rw [heq] at hmay
          exact hflip array hmay.flipsBits)
        h.memory h.settled hsealed
      exact hend
  · cases command
    case restore config bytes =>
      obtain ⟨p, hp, rfl⟩ := hfrom
      obtain ⟨hsound, hp⟩ := hsessions p hp
      rw [card_step_restore]
      rcases hok : ((Card.restore config p.card.image).exec s.card).1 with e | _
      · rw [card_of_restore_error hok]
        exact hsealed
      · intro array
        rw [Card.table_restored hsound.memory hok]
        exact (hsound.memory.resealed_recovered array).isSealed hp
    all_goals cases hrestore

/-! ## No false alarms -/

/-- What may be done to a card without corrupting it: anything but flipping bits, among it
restorations from its own images. -/
def Uncorrupting (past : List (Session μ)) (s : Session μ) (command : Command μ) : Prop :=
  (∀ array, ¬command.FlipsBits array) ∧ command.RestoresFrom (s :: past)

/-- Checks raise no false alarm. Whatever is done to a new card, short of flipping bits, and from
whichever images of its own it is restored, be they taken in the middle of a transaction, the check
of every sensitive array succeeds. -/
theorem no_false_alarm {config : Config} {card : Card} (hnew : Card.new config = .ok card)
    {past : List (Session μ)} (hleads : Leads Uncorrupting (.start card) past s)
    (hsensitive : s.card.isSensitive array = .ok true) :
    (step (.assertIntegrity array) s).result = .ok .done := by
  have hstart : (start card : Session μ).card.memory.store.Sealed := by
    unfold Card.new at hnew
    split at hnew
    next =>
      cases hnew
      exact fun _ _ hfound => nomatch hfound
    next => cases hnew
  obtain ⟨hsound, hsealed⟩ := hleads.all
    (I := fun p => p.Sound ∧ p.card.memory.store.Sealed) ⟨sound_start hnew, hstart⟩
    (fun command hpast hallowed =>
      ⟨(hpast _ (.head _)).1.step command,
        (hpast _ (.head _)).1.sealed_step (hpast _ (.head _)).2 hallowed.1 hallowed.2 hpast⟩)
    s (.head _)
  obtain ⟨cell, hcell, hs⟩ := (Integrity.isSensitive_eq_ok_iff hsound.memory.store).mp hsensitive
  exact hsound.assertIntegrity_eq_done_iff.mpr
    ⟨cell, hcell, hs, (hsealed array cell hcell).isIntact hs⟩

/-- A card with a sensitive array, in the middle of a transaction that writes to it. -/
def interrupted : Session ConstantScore :=
  (run fresh [.makeSensitive .byte 0 4, .begin, .setElement ⟨1⟩ 0 5]).2

/-- The same restored from its image. -/
def resumed : Session ConstantScore :=
  (step (.restore {} interrupted.card.image) interrupted).state

/-- Rolling the transaction back on the way leaves the array in order. -/
theorem no_false_alarm_resumed : (step (.assertIntegrity ⟨1⟩) resumed).result = .ok .done := by
  have hnew : Card.new {} = .ok (.blank {}) := rfl
  have hleads : Leads Uncorrupting fresh _ resumed :=
    (((Leads.here.step (.makeSensitive .byte 0 4) ⟨fun _ => id, trivial⟩).step .begin
      ⟨fun _ => id, trivial⟩).step (.setElement ⟨1⟩ 0 5) ⟨fun _ => id, trivial⟩).step
      (.restore {} interrupted.card.image) ⟨fun _ => id, _, .head _, rfl⟩
  have hsensitive : resumed.card.isSensitive ⟨1⟩ = .ok true := by decide +kernel
  exact no_false_alarm hnew hleads hsensitive

/-! ## Corruption -/

/-- What may be done to a corrupted array without repairing it. -/
def Unrepairing (array : ArrayRef) (past : List (Session μ)) (s : Session μ) (command : Command μ) :
    Prop :=
  ¬command.FlipsBits array ∧ command.RestoresFrom (s :: past) ∧ ¬Rewrites array s command

/-- Corruption stays detected. Once the check of an array fails, it fails whatever is done to the
card, among it restorations from images taken since, until bytes of the array are made anew or
flipped again. Once they are made anew, the check succeeds. -/
theorem corruption_persists {s₀ : Session μ} (hreachable : Reachable s₀)
    (hcorrupt : (step (.assertIntegrity array) s₀).result = .error (.digestMismatch array))
    {past : List (Session μ)} (hleads : Leads (Unrepairing array) s₀ past s) :
    (step (.assertIntegrity array) s).result = .error (.digestMismatch array) ∧
    ∀ command : Command μ, ¬command.FlipsBits array → command.RestoresFrom (s :: past) →
      Rewrites array s command →
        (step (.assertIntegrity array) (step command s).state).result = .ok .done := by
  obtain ⟨cell, hcell, hsensitive, hbroken⟩ :=
    hreachable.sound.assertIntegrity_eq_digestMismatch_iff.mp hcorrupt
  have hall := hleads.all
    (I := fun p => p.Sound ∧ p.card.memory.store.table.find? array = some cell)
    ⟨hreachable.sound, hcell⟩ fun command hpast hallowed => by
      obtain ⟨hsound, hsame⟩ := hpast _ (.head _)
      obtain ⟨hflip, hfrom, hkept⟩ := hallowed
      refine ⟨hsound.step command, ?_⟩
      rw [(hsound.resealed_step hsame hflip hfrom hpast).kept hkept]
      exact hsame
  obtain ⟨hsound, hsame⟩ := hall s (.head _)
  constructor
  · exact hsound.assertIntegrity_eq_digestMismatch_iff.mpr ⟨cell, hsame, hsensitive, hbroken⟩
  · intro command hflip hfrom hrewrites
    have hd : ∀ p ∈ s :: past, p.Sound ∧
        p.card.memory.store.descriptor? array = some cell.descriptor := fun p hp =>
      ⟨(hall p hp).1, Table.descriptor?_eq_some_iff.mpr ⟨cell, (hall p hp).2, rfl⟩⟩
    have hd' := hsound.descriptor?_step (hd s (.head _)).2 hfrom hd
    obtain ⟨cell', hcell', hsame'⟩ := Table.descriptor?_eq_some_iff.mp hd'
    have hsealed := (hsound.resealed_step hsame hflip hfrom hall).rewritten hrewrites cell' hcell'
    rw [← hsame'] at hsensitive
    exact (hsound.step command).assertIntegrity_eq_done_iff.mpr
      ⟨cell', hcell', hsensitive, hsealed.isIntact hsensitive⟩

/-- A card with a corrupted array and another one. -/
def corrupted : Session ConstantScore :=
  (run fresh [.makeSensitive .byte 0 2, .makePersistent .byte 2, .injectBitFlip ⟨1⟩ 0 1]).2

/-- The same in the middle of a transaction that writes to the other array. -/
def midway : Session ConstantScore := (run corrupted [.begin, .setElement ⟨2⟩ 0 5]).2

/-- A transaction on the other array and its rollback by way of an image repair nothing. -/
theorem corruption_persists_midway :
    (step (.assertIntegrity ⟨1⟩) (step (.restore {} midway.card.image) midway).state).result =
      .error (.digestMismatch ⟨1⟩) := by
  have hreachable : Reachable corrupted := reachable_fresh.run _
  have hcorrupt : (step (.assertIntegrity ⟨1⟩) corrupted).result = .error (.digestMismatch ⟨1⟩) := by
    decide +kernel
  have hbegin : Unrepairing ⟨1⟩ [] corrupted .begin := by
    refine ⟨id, trivial, ?_⟩
    rintro ⟨_, hstep, hrewrites⟩
    rw [List.mem_singleton.mp hstep] at hrewrites
    exact hrewrites
  have hwrite : Unrepairing ⟨1⟩ [corrupted] (step .begin corrupted).state (.setElement ⟨2⟩ 0 5) := by
    refine ⟨id, trivial, ?_⟩
    rintro ⟨_, hstep, hrewrites⟩
    cases List.mem_singleton.mp hstep
    rcases hrewrites with ⟨hother, _⟩ | ⟨⟨_, htorn, _⟩, _⟩
    · cases hother
    · cases htorn
  have hrestore : Unrepairing ⟨1⟩ [(step .begin corrupted).state, corrupted] midway
      (.restore {} midway.card.image) := by
    have hpersistent : midway.card.memory.store.descriptor? ⟨1⟩ =
        some ⟨.byte, 2, .persistent, true⟩ := by decide +kernel
    have hpending : ∀ u ∈ (Image.capture midway.card.memory).pending, u.array ≠ ⟨1⟩ := by
      decide +kernel
    refine ⟨id, ⟨_, .head _, rfl⟩, ?_⟩
    rintro ⟨hok, ⟨d, hd, htransient⟩ | ⟨image, himage, u, hu, harray⟩⟩
    · rw [hpersistent] at hd
      cases hd
      cases htransient
    · rw [Card.ofBytes_image hok] at himage
      cases himage
      exact hpending u hu harray
  exact (corruption_persists hreachable hcorrupt
    (((Leads.here.step _ hbegin).step _ hwrite).step _ hrestore)).1

/-- A write to another element of a corrupted array hides the corruption: the flipped byte is still
there, but the check succeeds. -/
theorem setElement_hides_corruption :
    (step (.assertIntegrity ⟨1⟩) corrupted).result = .error (.digestMismatch ⟨1⟩) ∧
      commandTrace corrupted (.setElement ⟨1⟩ 1 5) =
        [(corrupted.card.memory, .write ⟨.participating, ⟨1⟩, 1, [5]⟩)] ∧
      (step (.setElement ⟨1⟩ 1 5) corrupted).state.card.memory.store.byte? ⟨1⟩ 0 = some 1 ∧
      (step (.assertIntegrity ⟨1⟩) (step (.setElement ⟨1⟩ 1 5) corrupted).state).result =
        .ok .done := by
  refine ⟨by decide +kernel, rfl, by decide +kernel, by decide +kernel⟩

end Session

end SmartCard
