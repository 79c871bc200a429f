-- SUMMARY: Sealed cells: which operations rewrite an array and renew its digest, and that all others leave its cell alone.
import SmartCard.Proofs.Memory.Arrays
import SmartCard.Proofs.Memory.Payloads

/-!
# Seals

A sensitive cell is sealed when its digest is that of its payload. Whatever rewrites a cell, be it
one byte or none, seals it; only a flip of bits changes a payload without doing so. For each
operation on a memory it is said here when it rewrites an array (`Operation.Rewrites`): then the
array is sealed afterwards, and otherwise its cell is the same as before, with its payload and its
digest (`Operation.resealed_act`).
-/

namespace SmartCard

/-- A sensitive cell whose digest is that of its payload. -/
def Cell.Sealed (c : Cell) : Prop :=
  c.descriptor.sensitive = true → c.digest = some (Digest.ofBytes c.payload)

/-! ## Cells -/

namespace Cell

variable {c : Cell}

theorem sealed_refresh (c : Cell) : c.refresh.Sealed := by
  intro hsensitive
  rw [refresh_descriptor] at hsensitive
  rw [refresh, if_pos hsensitive]

theorem sealed_splice (c : Cell) (offset : Nat) (bytes : List UInt8) :
    (c.splice offset bytes).Sealed := sealed_refresh _

theorem sealed_clear (c : Cell) : c.clear.Sealed := sealed_refresh _

theorem sealed_zeroed (d : Descriptor) : (zeroed d).Sealed := sealed_refresh _

/-- A sealed cell passes the check of its digest. -/
theorem Sealed.isIntact (h : c.Sealed) (hsensitive : c.descriptor.sensitive = true) :
    c.isIntact = true := by
  rw [Cell.isIntact, h hsensitive]
  exact beq_self_eq_true _

theorem Sealed.rewound (h : c.Sealed) (array : ArrayRef) (entries : List UndoEntry) :
    (c.rewound array entries).Sealed := by
  induction entries generalizing c with
  | nil => exact h
  | cons e older ih =>
    rw [rewound_cons]
    split
    · exact ih (sealed_splice _ _ _)
    · exact ih h

/-- One before-image is enough to seal a cell. -/
theorem sealed_rewound_of_named {array : ArrayRef} {entries : List UndoEntry} (c : Cell)
    (h : ∃ e ∈ entries, e.array = array) : (c.rewound array entries).Sealed := by
  induction entries generalizing c with
  | nil =>
    obtain ⟨_, hmem, _⟩ := h
    cases hmem
  | cons e older ih =>
    rw [rewound_cons]
    split
    · exact (sealed_splice _ _ _).rewound array older
    next hother =>
      obtain ⟨e', hmem, hnamed⟩ := h
      rcases List.mem_cons.mp hmem with rfl | hmem
      · exact absurd hnamed hother
      · exact ih c ⟨e', hmem, hnamed⟩

end Cell

/-! ## Stores -/

/-- A store whose sensitive cells are all sealed. -/
def Store.Sealed (s : Store) : Prop :=
  ∀ array cell, s.table.find? array = some cell → cell.Sealed

/-- Whether an array exists and is transient. -/
def Store.IsTransient (s : Store) (array : ArrayRef) : Prop :=
  ∃ d, s.descriptor? array = some d ∧ d.lifetime.isTransient = true

/-- From one store to another, an array is rewritten and sealed if `p` holds, and else keeps its
cell. -/
structure Store.Resealed (array : ArrayRef) (p : Prop) (s s' : Store) : Prop where
  kept : ¬p → s'.table.find? array = s.table.find? array
  rewritten : p → ∀ cell, s'.table.find? array = some cell → cell.Sealed

namespace Store

variable {c : Config} {s s' s'' : Store} {array : ArrayRef} {p q : Prop}

namespace Resealed

theorem refl (array : ArrayRef) (s : Store) : Resealed array False s s := ⟨fun _ => rfl, nofun⟩

/-- What is done later seals the array or leaves it as sealed as it was. -/
theorem trans (h : Resealed array p s s') (h' : Resealed array q s' s'') :
    Resealed array (p ∨ q) s s'' where
  kept := by
    intro hnone
    rw [not_or] at hnone
    exact (h'.kept hnone.2).trans (h.kept hnone.1)
  rewritten := by
    intro hsome cell hcell
    by_cases hq : q
    · exact h'.rewritten hq cell hcell
    · rw [h'.kept hq] at hcell
      exact h.rewritten (hsome.resolve_right hq) cell hcell

theorem congr (h : Resealed array p s s') (hiff : q ↔ p) : Resealed array q s s' := by
  rw [propext hiff]
  exact h

/-- Only the table counts. -/
theorem of_table {t t' : Store} (h : Resealed array p s s') (ht : t.table = s.table)
    (ht' : t'.table = s'.table) : Resealed array p t t' where
  kept := by
    rw [ht, ht']
    exact h.kept
  rewritten := by
    rw [ht']
    exact h.rewritten

theorem isSealed (h : Resealed array p s s') (hs : s.Sealed) :
    ∀ cell, s'.table.find? array = some cell → cell.Sealed := by
  intro cell hcell
  by_cases hp : p
  · exact h.rewritten hp cell hcell
  · rw [h.kept hp] at hcell
    exact hs array cell hcell

end Resealed

theorem resealed_restoreBytes {written : ArrayRef} {offset : Nat} {bytes : List UInt8}
    (hs : s.restoreBytes written offset bytes = .ok s') (array : ArrayRef) :
    Resealed array (written = array) s s' := by
  obtain ⟨cell, _, _, rfl⟩ := restoreBytes_eq_ok_iff.mp hs
  constructor <;> dsimp only <;> rw [Table.find?_set]
  · intro hne
    rw [if_neg (Ne.symm hne)]
  · rintro rfl found hfound
    rw [if_pos rfl, Option.map_eq_some_iff] at hfound
    obtain ⟨_, _, rfl⟩ := hfound
    exact Cell.sealed_splice _ _ _

/-- A write out of the tear budget rewrites its array unless it is refused. -/
theorem resealed_write (written : ArrayRef) (offset : Nat) (bytes : List UInt8) (s : Store)
    (array : ArrayRef) :
    Resealed array
      (written = array ∧ ∀ e, ((write written offset bytes).exec s).1 = .error e →
        e.isPowerLoss = true)
      s ((write written offset bytes).exec s).2 := by
  have hw := Store.written written offset bytes s
  generalize (write written offset bytes).exec s = r at hw ⊢
  cases hw with
  | whole hs _ =>
    refine Resealed.of_table ((resealed_restoreBytes hs array).congr ?_) rfl rfl
    simp
  | torn _ _ hs =>
    refine Resealed.of_table ((resealed_restoreBytes hs array).congr ?_) rfl rfl
    refine and_iff_left fun e he => ?_
    cases he
    rfl
  | refused _ _ hrefusal =>
    refine Resealed.of_table ((Resealed.refl array s).congr ?_) rfl rfl
    simp [hrefusal.1]

theorem Rewound.resealed {entries : List UndoEntry} (h : Rewound entries s s')
    (array : ArrayRef) : Resealed array (∃ e ∈ entries, e.array = array) s s' where
  kept := by
    intro hunnamed
    rw [h.cell]
    have hsame : ∀ cell : Cell, cell.rewound array entries = cell := fun cell =>
      cell.rewound_of_unnamed fun e he hnamed => hunnamed ⟨e, he, hnamed⟩
    simp only [hsame, Option.map_id']
  rewritten := by
    intro hnamed cell hcell
    rw [h.cell, Option.map_eq_some_iff] at hcell
    obtain ⟨old, _, rfl⟩ := hcell
    exact old.sealed_rewound_of_named hnamed

/-- Clearing rewrites the transient arrays whose lifetime ends. -/
theorem resealed_clearTransients (s : Store) (ends : Lifetime → Bool) (array : ArrayRef) :
    Resealed array
      (∃ d, s.descriptor? array = some d ∧ (d.lifetime.isTransient && ends d.lifetime) = true)
      s (s.clearTransients ends) := by
  constructor <;> rw [find?_clearTransients]
  · intro hlasting
    rcases hfound : s.table.find? array with _ | cell
    · rfl
    · rw [Option.map_some, cleared, if_neg]
      exact fun hends => hlasting ⟨_, Table.descriptor?_eq_some_iff.mpr ⟨cell, hfound, rfl⟩, hends⟩
  · rintro ⟨d, hd, hends⟩ cell hcell
    obtain ⟨old, hfound, rfl⟩ := Table.descriptor?_eq_some_iff.mp hd
    rw [hfound, Option.map_some, Option.some.injEq] at hcell
    rw [← hcell, cleared, if_pos hends]
    exact old.sealed_clear

theorem Sound.resealed_allocate (h : s.Sound c) {d : Descriptor} {fresh : ArrayRef}
    (hs : s.allocate d = .ok (fresh, s')) (array : ArrayRef) :
    Resealed array (fresh = array) s s' := by
  obtain ⟨_, _, _, rfl⟩ := h.allocate_eq_ok_iff.mp hs
  constructor <;> dsimp only <;> rw [Table.find?_insert]
  · intro hne
    rw [if_neg (Ne.symm hne)]
  · rintro rfl cell hcell
    rw [if_pos rfl, Option.some.injEq] at hcell
    rw [← hcell]
    exact Cell.sealed_zeroed d

theorem resealed_flipBits {flipped : ArrayRef} {byte : Nat} {mask : UInt8}
    (hs : s.flipBits flipped byte mask = .ok s') (hne : flipped ≠ array) :
    Resealed array False s s' := by
  obtain ⟨_, _, _, _, rfl⟩ := flipBits_eq_ok_iff.mp hs
  refine ⟨fun _ => ?_, nofun⟩
  dsimp only
  rw [Table.find?_set, if_neg hne.symm]

end Store

/-! ## Memories -/

namespace Memory

variable {c : Config} {m : Memory}

/-- Whether an entry of the undo log keeps bytes of an array. -/
def Logs (m : Memory) (array : ArrayRef) : Prop :=
  ∃ e ∈ m.transaction.log.entries, e.array = array

theorem Sound.resealed_undone (h : m.Sound c) (array : ArrayRef) :
    Store.Resealed array (m.Logs array) m.store m.undone :=
  (Store.rewound_of_restore h.restored.exec).resealed array

/-- Rolling back and clearing all transient arrays, as a reset does and the recovery after a loss of
power. -/
theorem Sound.resealed_wasReset (h : m.Sound c) (array : ArrayRef) :
    Store.Resealed array (m.Logs array ∨ m.store.IsTransient array) m.store m.wasReset.store := by
  have hclear := m.undone.resealed_clearTransients (fun _ => true) array
  rw [h.descriptor?_undone] at hclear
  simp only [Bool.and_true] at hclear
  exact (h.resealed_undone array).trans hclear

theorem Sound.resealed_recovered (h : m.Sound c) (array : ArrayRef) :
    Store.Resealed array (m.Logs array ∨ m.store.IsTransient array) m.store m.recovered.store :=
  (h.resealed_wasReset array).of_table rfl rfl

end Memory

/-! ## Writes -/

namespace Write

variable {c : Config} {m m' : Memory} {w : Write} {array : ArrayRef}

/-- Whether the store takes a write, be it only the bytes that a tear lets through. -/
def Lands (w : Write) (m : Memory) : Prop := ∀ e, w.answer m = .error e → e.isPowerLoss = true

/-- Whether power is lost during a write. -/
def Tears (w : Write) (m : Memory) : Prop := ∃ e, w.answer m = .error e ∧ e.isPowerLoss = true

/-- Whether a write makes bytes of an array anew: as its destination, or by what is rolled back and
cleared if the write fails for want of room or of power. -/
def Rewrites (array : ArrayRef) (m : Memory) (w : Write) : Prop :=
  match w.issued m with
  | .error e => e.isBufferFull = true ∧ m.Logs array
  | .ok m' => (w.array = array ∧ w.Lands m') ∨
    (w.Tears m' ∧ (m'.Logs array ∨ m'.store.IsTransient array))

theorem resealed_stored (w : Write) (m : Memory) (array : ArrayRef) :
    Store.Resealed array (w.array = array ∧ w.Lands m) m.store (w.stored m).store :=
  Store.resealed_write w.array w.offset w.bytes m.store array

theorem resealed_concluded (h : m.Sound c) (w : Write) (array : ArrayRef) :
    Store.Resealed array
      ((w.array = array ∧ w.Lands m) ∨
        (w.Tears m ∧ (m.Logs array ∨ m.store.IsTransient array)))
      m.store (w.concluded m).2.store := by
  have hstored := resealed_stored w m array
  unfold concluded
  rcases hanswer : w.answer m with e | _
  · dsimp only
    split
    next hloss =>
      have hd : (w.stored m).store.IsTransient array ↔ m.store.IsTransient array := by
        unfold Store.IsTransient
        rw [show (w.stored m).store.descriptor? = m.store.descriptor? from
          Store.descriptor?_write _ _ _ _]
      refine (hstored.trans ((sound_stored h).resealed_recovered array)).congr ?_
      rw [hd]
      simp only [Tears, hanswer, Except.error.injEq, exists_eq_left', hloss, true_and]
      rfl
    next hrefused =>
      refine hstored.congr (or_iff_left ?_)
      simp [Tears, hanswer, hrefused]
  · refine hstored.congr (or_iff_left ?_)
    simp [Tears, hanswer]

/-- A write rewrites what `Write.Rewrites` says, and nothing else. -/
theorem resealed_act (h : m.Sound c) (hs : m.Settled) (w : Write) (array : ArrayRef) :
    Store.Resealed array (w.Rewrites array m) m.store (w.act.exec m).2.store := by
  rw [exec_act h hs, Rewrites]
  rcases hissued : w.issued m with e | m'
  · rw [ending]
    dsimp only
    split
    next hfull => exact (h.resealed_undone array).congr (by simp [hfull])
    next hroom => exact (Store.Resealed.refl array _).congr (by simp [hroom])
  · rw [ending]
    refine (resealed_concluded (sound_issued h hissued) w array).of_table ?_ ?_
    · rcases issued_cases hissued with ⟨_, rfl⟩ | ⟨_, hlogged⟩
      · rfl
      · obtain ⟨_, _, hstore, _⟩ := entries_logged hlogged
        rw [hstore]
    · unfold Memory.settled
      dsimp only
      split <;> rfl

end Write

/-! ## Operations -/

namespace Operation

variable {c : Config} {m : Memory} {array : ArrayRef}

/-- Whether an operation makes bytes of an array anew: by a write, by rolling back an entry of the
log, or by clearing. A flip of bits does not count. -/
def Rewrites (array : ArrayRef) (m : Memory) : Operation → Prop
  | .write w => w.Rewrites array m
  | .abort => m.Logs array
  | .reset => m.Logs array ∨ m.store.IsTransient array
  | .deselect => ∃ d, m.store.descriptor? array = some d ∧ d.lifetime = .transientDeselect
  | .begin | .commit | .allocate _ | .arm _ | .flip .. => False

/-- An operation seals what it rewrites and leaves all else as it is, flipped bits and new arrays
apart. -/
theorem resealed_act (h : m.Sound c) (hs : m.Settled) {op : Operation}
    (hflip : ∀ byte mask, op ≠ .flip array byte mask)
    (hold : ∀ d, op = .allocate d → m.store.descriptor? array ≠ none) :
    Store.Resealed array (op.Rewrites array m) m.store (op.act.exec m).2.store := by
  cases op with
  | begin =>
    rw [act, Memory.exec_begin]
    split <;> exact .refl array _
  | commit =>
    rw [act, Memory.exec_commit]
    split <;> exact .refl array _
  | abort =>
    rw [act, h.exec_abort]
    split
    next hidle =>
      refine (Store.Resealed.refl array _).congr ?_
      simp [Rewrites, Memory.Logs, h.entries_of_idle hidle]
    next => exact h.resealed_undone array
  | write w => exact Write.resealed_act h hs w array
  | allocate d =>
    rw [exec_allocate]
    rcases hd : m.store.allocate d with _ | ⟨fresh, s⟩
    · exact .refl array _
    · refine (h.store.resealed_allocate hd array).congr ?_
      simp only [Rewrites, false_iff]
      rintro rfl
      exact hold d rfl (Store.freeRef_eq_ok (Store.freeRef_of_allocate hd))
  | reset =>
    rw [exec_reset h]
    exact h.resealed_wasReset array
  | deselect =>
    rw [exec_deselect]
    have hclear := m.store.resealed_clearTransients (· == .transientDeselect) array
    refine hclear.congr (exists_congr fun d => and_congr_right fun _ => ?_)
    cases d.lifetime <;> decide
  | arm bytes =>
    rw [exec_arm]
    exact (Store.Resealed.refl array m.store).of_table rfl rfl
  | flip flipped byte mask =>
    rw [exec_flip]
    rcases hf : m.store.flipBits flipped byte mask with _ | s
    · exact .refl array _
    · exact Store.resealed_flipBits hf fun heq => hflip byte mask (by rw [heq])

/-- Without a flip of bits a memory stays sealed. -/
theorem sealed_act (h : m.Sound c) (hs : m.Settled) (hsealed : m.store.Sealed) {op : Operation}
    (hflip : ∀ array byte mask, op ≠ .flip array byte mask) :
    (op.act.exec m).2.store.Sealed := by
  intro array
  by_cases hnew : ∃ d, op = .allocate d ∧ m.store.descriptor? array = none
  · obtain ⟨d, rfl, _⟩ := hnew
    rw [exec_allocate]
    rcases hd : m.store.allocate d with _ | ⟨fresh, s⟩
    · exact hsealed array
    · exact (h.store.resealed_allocate hd array).isSealed hsealed
  · exact (resealed_act h hs (hflip array) fun d hop hnone => hnew ⟨d, hop, hnone⟩).isSealed hsealed

/-- What a run rewrites is sealed at its end, and all else is as it was. -/
theorem resealed_run (h : m.Sound c) (hs : m.Settled) {d : Descriptor}
    (hd : m.store.descriptor? array = some d) {ops : List Operation}
    (hflip : ∀ op ∈ ops, ∀ byte mask, op ≠ .flip array byte mask) :
    Store.Resealed array (∃ step ∈ trace m ops, step.2.Rewrites array step.1) m.store
      (run m ops).2.store := by
  induction ops generalizing m with
  | nil => exact (Store.Resealed.refl array m.store).congr (by simp [trace])
  | cons op more ih =>
    obtain ⟨hfirst, hrest⟩ := List.forall_mem_cons.mp hflip
    have hact := resealed_act h hs hfirst fun _ _ => by
      rw [hd]
      exact Option.some_ne_none d
    have hd' := keeps_act h hs op array d hd
    have ih' := ih (sound_act h hs op) (settled_act h hs op) hd' hrest
    rw [run, trace]
    rcases hexec : op.act.exec m with ⟨_ | ⟨⟩, m'⟩
    · rw [hexec] at hact
      exact hact.congr (by simp)
    · rw [hexec] at hact ih'
      exact (hact.trans ih').congr (by simp)

end Operation

end SmartCard
