-- SUMMARY: How large the image of a card is, and that the card is restored from it just when it is not too large.
import SmartCard.Proofs.Image.Size
import SmartCard.Proofs.Session.Capacity
import SmartCard.Proofs.Session.Committed
import SmartCard.Proofs.Session.Recovery

/-!
# A card's own image

A card is restored from its own image unless the image has more bytes than are read at all. Writing
has no such limit, and what an image holds is not bounded by the pools alone: each array adds an
entry, one without elements, too, and so does each entry of the undo log. The size of an image
follows from the number of these entries and from the bytes charged for them
(`Session.own_image_accepted_iff`).
-/

namespace SmartCard

variable {c : Config} {m : Memory}

/-- The bytes that the entries of a log keep. -/
def UndoLog.keptBytes (log : UndoLog) : Nat := (log.entries.map fun e => e.before.length).sum

theorem UndoLog.sum_cost_eq (log : UndoLog) (overhead : Nat) :
    (log.entries.map fun e => overhead + e.before.length).sum =
      overhead * log.entries.length + log.keptBytes := by
  unfold keptBytes
  induction log.entries with
  | nil => rfl
  | cons e older ih =>
    rw [List.map_cons, List.sum_cons, ih, List.map_cons, List.sum_cons, List.length_cons,
      Nat.mul_succ]
    omega

/-! ## Sizes -/

/-- An image has as many bytes of data as are charged to the persistent pool. -/
theorem Image.payloadBytes_capture (h : m.store.Sound c) :
    (capture m).payloadBytes = m.store.pools.persistent.used.toNat := by
  have hcharge : ∀ entry ∈ m.store.table.entries,
      (captureArray entry.1 entry.2).data.length = Table.charge .persistent entry := by
    rintro ⟨array, cell⟩ hentry
    have hfound := (Table.lookup_eq_some_iff_mem m.store.table.ascending).mpr hentry
    have hsize := (h.cells hfound).size
    unfold captureArray Table.charge
    rcases hlifetime : cell.descriptor.lifetime with _ | _ | _ <;>
      simp [hlifetime, Lifetime.isPersistent, hsize]
  have hused : m.store.pools.persistent.used.toNat = m.store.table.bytesOf .persistent :=
    h.used_eq .persistent
  rw [hused, Table.bytesOf, payloadBytes, capture, List.map_map]
  exact congrArg List.sum (List.map_congr_left hcharge)

theorem Image.pendingBytes_capture (m : Memory) :
    (capture m).pendingBytes = m.transaction.log.keptBytes := by
  rw [pendingBytes, capture, List.map_map, List.map_reverse, List.sum_reverse]
  rfl

theorem Image.sized_capture (h : m.store.Sound c) :
    Sized m.store.table.entries.length m.store.pools.persistent.used.toNat
      m.transaction.log.entries.length m.transaction.log.keptBytes (capture m).encode.length := by
  have hsized := (capture m).sized_encode
  rw [payloadBytes_capture h, pendingBytes_capture] at hsized
  simpa [capture] using hsized

/-! ## Restoring -/

/-- A card is restored from its own image, or the image is too large. -/
theorem Card.exec_restore_own (hvalid : c.validate = .ok ()) (h : m.Sound c) (card : Card) :
    (restore c (Image.capture m).encode).exec card =
      if (Image.capture m).encode.length ≤ Image.maxBytes then (.ok (), ⟨c, m.recovered⟩)
      else (.error .imageTooLarge, card) := by
  split
  next hsize => exact exec_restore_capture hvalid h hsize card
  next hsize =>
    have hread : Image.ofBytes (Image.capture m).encode = .error .imageTooLarge :=
      if_pos (Nat.not_le.mp hsize)
    unfold Act.exec restore
    simp only [hvalid, hread]

namespace Session

variable {μ : Type} [Matcher μ] {s : Session μ}

theorem Sound.restore_own (h : s.Sound) :
    (Session.step (.restore s.card.config s.card.image) s).result =
      (if s.card.image.length ≤ Image.maxBytes then .ok .done else .error .imageTooLarge) ∧
    (Session.step (.restore s.card.config s.card.image) s).state.card =
      if s.card.image.length ≤ Image.maxBytes then ⟨s.card.config, s.card.memory.recovered⟩
      else s.card := by
  have hexec : (Card.restore s.card.config s.card.image).exec s.card = _ :=
    Card.exec_restore_own h.config h.memory s.card
  rw [result_step_restore, card_step_restore, hexec]
  unfold Card.image
  split <;> exact ⟨rfl, rfl⟩

/-- A card is restored from its own image just when the image has no more bytes than are read. The
card comes up as after a recovery; otherwise it stays as it is. The size of the image lies between
bounds on what its arrays, its persistent payloads and the entries of its undo log take. -/
theorem own_image_accepted_iff (hreachable : s.Reachable) :
    (step (.restore s.card.config s.card.image) s).result =
      (if s.card.image.length ≤ Image.maxBytes then .ok .done else .error .imageTooLarge) ∧
    (step (.restore s.card.config s.card.image) s).state.card =
      (if s.card.image.length ≤ Image.maxBytes then ⟨s.card.config, s.card.memory.recovered⟩
      else s.card) ∧
    Image.Sized s.card.memory.store.table.entries.length
      s.card.memory.store.pools.persistent.used.toNat
      s.card.memory.transaction.log.entries.length
      s.card.memory.transaction.log.keptBytes s.card.image.length := by
  obtain ⟨hresult, hcard⟩ := hreachable.sound.restore_own
  exact ⟨hresult, hcard, Image.sized_capture hreachable.sound.memory.store⟩

/-- In the middle of a transaction a card is restored from its image. -/
theorem own_image_accepted_beforeTear :
    (step (.restore beforeTear.card.config beforeTear.card.image) beforeTear).result =
      .ok .done := by
  have hreachable : beforeTear.Reachable := reachable_fresh.run _
  have hsize : beforeTear.card.image.length ≤ Image.maxBytes := by decide +kernel
  rw [(own_image_accepted_iff hreachable).1, if_pos hsize]

end Session

/-! ## Images that are too large -/

/-- Without a tear ahead, a logged write that has room is done, and its entry is in the log. -/
theorem Write.act_of_room {w : Write} (h : m.Sound c) (hw : w.InRange m.store)
    (hstate : m.transaction.state = .explicit) (htear : m.store.tear = none)
    (hlogs : w.logs m = .ok true) (hfits : m.transaction.log.fits w.bytes.length = true) :
    ∃ m', w.act.exec m = (.ok (), m') ∧ m'.transaction.state = .explicit ∧
      m'.store.tear = none ∧ m'.store.descriptor? = m.store.descriptor? ∧
      ∃ before, before.length = w.bytes.length ∧
        m'.transaction.log = m.transaction.log.push ⟨w.array, w.offset, before⟩ := by
  have hopen : m.transaction.isIdle = false := by
    rw [Transaction.isIdle, hstate]
    rfl
  rcases hw.logged h with ⟨_, m₁, hm⟩ | ⟨hfull, _⟩
  · have hissued : w.issued m = .ok m₁ := (issued_of_logged hlogs).trans hm
    have hstore := store_issued hissued
    have hstate' : m₁.transaction.state = .explicit := (state_issued hopen hissued).trans hstate
    obtain ⟨d, hd, hin⟩ := hw
    obtain ⟨s, hs⟩ := h.store.restoreBytes_isOk hd hin
    have hsettled : Memory.settled { m₁ with store := s } = { m₁ with store := s } :=
      settled_eq (Memory.settled_of_explicit hstate')
    obtain ⟨before, hlength, _, hlog⟩ := log_logged hm
    refine ⟨{ m₁ with store := s }, ?_, hstate', (Store.tear_restoreBytes hs).trans htear,
      Store.descriptor?_restoreBytes hs, before, hlength, hlog⟩
    rw [exec_act h (Memory.settled_of_explicit hstate), hissued, ending,
      concluded_of_untorn (hstore ▸ htear), hstore, hs]
    dsimp only
    rw [hsettled]
  · rw [hfits] at hfull
    cases hfull

/-- A memory in an open transaction without a tear ahead, with a persistent array, and what is
charged to the log. -/
structure Memory.Filling (c : Config) (m : Memory) (array : ArrayRef) (d : Descriptor)
    (used : Nat) : Prop where
  sound : m.Sound c
  state : m.transaction.state = .explicit
  untorn : m.store.tear = none
  descriptor : m.store.descriptor? array = some d
  persistent : d.lifetime.isPersistent = true
  used_le : m.transaction.log.used ≤ m.transaction.log.max
  used_eq : m.transaction.log.used.toNat = used

variable {array : ArrayRef} {d : Descriptor} {used : Nat}

/-- Writing the whole array charges its payload once more. -/
theorem Memory.Filling.write (h : m.Filling c array d used) {bytes : List UInt8}
    (hbytes : bytes.length = d.byteLength)
    (hroom : used + (c.commitEntryOverhead.toNat + d.byteLength) ≤ c.commitCapacity.toNat) :
    ∃ m', (Write.act ⟨.participating, array, 0, bytes⟩).exec m = (.ok (), m') ∧
      m'.Filling c array d (used + (c.commitEntryOverhead.toNat + d.byteLength)) := by
  have hrange : Write.InRange ⟨.participating, array, 0, bytes⟩ m.store :=
    ⟨d, h.descriptor, by dsimp only; omega⟩
  have hfits : m.transaction.log.fits bytes.length = true := by
    rw [UndoLog.fits_iff h.used_le, h.sound.cost_eq, h.sound.max_eq, h.used_eq, hbytes]
    exact hroom
  have hlogs : Write.logs ⟨.participating, array, 0, bytes⟩ m = .ok true := by
    show (m.store.descriptor .store array).map _ = _
    rw [h.sound.store.descriptor_iff.mpr h.descriptor, Except.map, h.persistent,
      Transaction.isIdle, h.state]
    rfl
  obtain ⟨m', hexec, hstate, htear, hd, before, hbefore, hlog⟩ :=
    Write.act_of_room h.sound hrange h.state h.untorn hlogs hfits
  have hsound := Write.sound_act h.sound (settled_of_explicit h.state)
    (w := ⟨.participating, array, 0, bytes⟩)
  rw [hexec] at hsound
  refine ⟨m', hexec, hsound, hstate, htear, ?_, h.persistent, ?_, ?_⟩
  · rw [hd]
    exact h.descriptor
  · rw [hlog]
    exact UndoLog.charged_le _ _
  · rw [hlog]
    show (UndoLog.charged _ (UndoLog.cost _ before.length)).toNat = _
    rw [hbefore, UndoLog.toNat_charged h.used_le hfits, h.sound.cost_eq, h.used_eq, hbytes]

namespace Session

variable {μ : Type} [Matcher μ] {s : Session μ} {values : List Int32}

theorem request_loadElements (hd : s.card.memory.store.descriptor .store array = .ok d)
    (hlength : d.length ≤ maxArrayLength) (hvalues : values.length = d.length)
    (hne : values ≠ []) :
    (Command.loadElements array values).request s =
      .ok [.write ⟨.participating, array, 0, values.flatMap d.kind.encode⟩] := by
  have hslot : s.card.memory.slot array 0 values.length = .ok (d, 0) := by
    have hin : 0 + values.length ≤ d.length := by omega
    refine bind_eq_ok_iff.mpr ⟨d, hd, ?_⟩
    show (if 0 + values.length ≤ d.length then pure (d, 0 * d.kind.width) else _) = _
    rw [if_pos hin, Nat.zero_mul]
    rfl
  have hfilled : values.isEmpty = false := by simpa using hne
  unfold Command.request
  dsimp only
  rw [if_neg (Nat.not_lt.mpr (hvalues ▸ hlength)), hslot]
  simp [hfilled]

/-- Each time the whole array is loaded, its payload is charged once more. -/
theorem Sound.filling_load (h : s.Sound)
    (hfilling : s.card.memory.Filling s.card.config array d used)
    (hvalues : values.length = d.length) (hne : values ≠ [])
    (hroom : used + (s.card.config.commitEntryOverhead.toNat + d.byteLength) ≤
      s.card.config.commitCapacity.toNat) :
    (Session.step (.loadElements array values) s).state.card.config = s.card.config ∧
      (Session.step (.loadElements array values) s).state.card.memory.Filling s.card.config array d
        (used + (s.card.config.commitEntryOverhead.toNat + d.byteLength)) := by
  have hlength := h.memory.store.length_le hfilling.descriptor
  have hrequest := request_loadElements (h.memory.store.descriptor_iff.mpr hfilling.descriptor)
    hlength hvalues hne
  have hbytes : (values.flatMap d.kind.encode).length = d.byteLength := by
    rw [length_flatMap_encode, hvalues, Descriptor.byteLength]
  obtain ⟨m', hexec, hfilling'⟩ := hfilling.write hbytes hroom
  have hcard : (Session.step (.loadElements array values) s).state.card =
      { s.card with memory := m' } := by
    rw [h.card_step rfl, hrequest, Operation.carry_ok, Operation.run_singleton]
    exact congrArg (fun r => { s.card with memory := r.2 }) hexec
  rw [hcard]
  exact ⟨rfl, hfilling'⟩

theorem Sound.filling_loads (h : s.Sound)
    (hfilling : s.card.memory.Filling s.card.config array d used)
    (hvalues : values.length = d.length) (hne : values ≠ []) (count : Nat)
    (hroom : used + count * (s.card.config.commitEntryOverhead.toNat + d.byteLength) ≤
      s.card.config.commitCapacity.toNat) :
    (run s (List.replicate count (.loadElements array values))).2.card.config = s.card.config ∧
      (run s (List.replicate count (.loadElements array values))).2.card.memory.Filling
        s.card.config array d
        (used + count * (s.card.config.commitEntryOverhead.toNat + d.byteLength)) := by
  induction count generalizing s used with
  | zero =>
    rw [Nat.zero_mul]
    exact ⟨rfl, hfilling⟩
  | succ count ih =>
    rw [Nat.succ_mul] at hroom
    obtain ⟨hconfig, hfirst⟩ := h.filling_load hfilling hvalues hne (by omega)
    rw [← hconfig] at hfirst
    have hmore := ih (h.step _) hfirst (by rw [hconfig]; omega)
    rw [hconfig, Nat.add_assoc, Nat.add_comm (_ + d.byteLength), ← Nat.succ_mul] at hmore
    exact hmore

/-- An image takes at least the bytes that are charged for the entries of the undo log, unless they
are charged with a larger overhead than entries have in an image. -/
theorem Reachable.used_le_length_image (h : s.Reachable)
    (hoverhead : s.card.config.commitEntryOverhead.toNat ≤ 24) :
    s.card.memory.transaction.log.used.toNat ≤ s.card.image.length := by
  have hfloor : _ ≤ s.card.image.length := (Image.sized_capture h.sound.memory.store).floor
  have hused := (h.sound.memory.accounted h.sound.settled h.balanced).used_eq
  rw [UndoLog.sum_cost_eq] at hused
  have hentries := Nat.mul_le_mul_right s.card.memory.transaction.log.entries.length hoverhead
  omega

/-- A configuration with a commit buffer of twice the size of the largest image that is read. -/
def roomy : Config := { commitCapacity := 8388608 }

/-- A card with an array, in an open transaction. -/
def stocked : Session ConstantScore :=
  (run (.start (.blank roomy)) [.makePersistent .int 4096, .begin]).2

/-- The same after the array was loaded time and again. -/
def hoarding : Session ConstantScore :=
  (run stocked (List.replicate 256 (.loadElements ⟨1⟩ (List.replicate 4096 0)))).2

/-- The undo log alone makes the image of the card too large for the card to be restored. -/
theorem hoarding_outgrows_image :
    Card.new roomy = .ok (.blank roomy) ∧ hoarding.Reachable ∧
    hoarding.card.config = roomy ∧ Image.maxBytes < hoarding.card.image.length ∧
    (step (.restore roomy hoarding.card.image) hoarding).result = .error .imageTooLarge := by
  have hnew : Card.new roomy = .ok (.blank roomy) := rfl
  have hroomy : stocked.card.config = roomy := rfl
  have hreachable : stocked.Reachable := (Reachable.start hnew).run _
  have hstocked : stocked.card.memory.Filling stocked.card.config ⟨1⟩
      ⟨.int, 4096, .persistent, false⟩ 0 :=
    { sound := hreachable.sound.memory
      state := rfl
      untorn := rfl
      descriptor := rfl
      persistent := rfl
      used_le := UInt32.zero_le
      used_eq := rfl }
  have hvalues : (List.replicate 4096 (0 : Int32)).length = 4096 := List.length_replicate
  have hne : List.replicate 4096 (0 : Int32) ≠ [] :=
    List.ne_nil_of_length_pos (by rw [hvalues]; decide)
  obtain ⟨hconfig, hfilling⟩ :=
    hreachable.sound.filling_loads hstocked hvalues hne 256 (by rw [hroomy]; decide)
  rw [hroomy] at hconfig hfilling
  have hreachable' : hoarding.Reachable := hreachable.run _
  -- Each load is charged with 16384 bytes and an overhead of 8: 4196352 bytes in all.
  change hoarding.card.config = roomy at hconfig
  change Memory.Filling roomy hoarding.card.memory _ _ 4196352 at hfilling
  have hlarge : Image.maxBytes < hoarding.card.image.length := by
    refine Nat.lt_of_lt_of_le ?_ (hreachable'.used_le_length_image ?_)
    · rw [hfilling.used_eq]
      decide
    · rw [hconfig]
      decide
  have hresult := hreachable'.sound.restore_own.1
  rw [hconfig, if_neg (Nat.not_le.mpr hlarge)] at hresult
  exact ⟨hnew, hreachable', hconfig, hlarge, hresult⟩

end Session

end SmartCard
