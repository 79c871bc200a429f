-- SUMMARY: Operations leave an array alone that neither they nor the undo log name.
import SmartCard.Proofs.Memory.Operations

/-!
# What operations leave alone

An array that no entry of the undo log names is out of the reach of rollbacks, and so it keeps its
bytes and its descriptor under every operation that does not name it (`Operation.spares_act`), and
under runs of such operations. Writes on the unconditional lane name an array without putting it
into the log.
-/

namespace SmartCard

namespace Memory

/-- No entry of the undo log keeps bytes of the array. -/
def Unlogged (array : ArrayRef) (m : Memory) : Prop :=
  ∀ e ∈ m.transaction.log.entries, e.array ≠ array

/-- The array is as it was, and still out of the log. -/
structure Spares (array : ArrayRef) (m m' : Memory) : Prop where
  descriptor : m'.store.descriptor? array = m.store.descriptor? array
  byte : ∀ i, m'.store.byte? array i = m.store.byte? array i
  unlogged : m'.Unlogged array

variable {c : Config} {m m' m'' : Memory} {array : ArrayRef}

theorem Spares.refl (h : m.Unlogged array) : Spares array m m := ⟨rfl, fun _ => rfl, h⟩

theorem Spares.trans (h : Spares array m m') (h' : Spares array m' m'') : Spares array m m'' :=
  ⟨h'.descriptor.trans h.descriptor, fun i => (h'.byte i).trans (h.byte i), h'.unlogged⟩

theorem unlogged_of_nil (h : m.transaction.log.entries = []) : m.Unlogged array := by
  intro e he
  rw [h] at he
  cases he

/-- Only the store changes, and not in this array. -/
theorem Spares.of_store (h : m.Unlogged array) {s : Store}
    (hd : s.descriptor? array = m.store.descriptor? array)
    (hb : ∀ i, s.byte? array i = m.store.byte? array i) :
    Spares array m { m with store := s } := ⟨hd, hb, h⟩

theorem kept?_of_unlogged (h : m.Unlogged array) (i : Nat) :
    UndoLog.kept? array i m.transaction.log.entries = none := by
  unfold Unlogged at h
  generalize m.transaction.log.entries = entries at h
  induction entries with
  | nil => rfl
  | cons e older ih =>
    rw [UndoLog.kept?_of_not_covers fun hcovers => h e List.mem_cons_self hcovers.1]
    exact ih fun e he => h e (List.mem_cons_of_mem _ he)

theorem Sound.byte?_undone_of_unlogged (h : m.Sound c) (hu : m.Unlogged array) (i : Nat) :
    m.undone.byte? array i = m.store.byte? array i := by
  rw [h.byte?_undone, kept?_of_unlogged hu, Option.none_or]

theorem Sound.spares_rolledBack (h : m.Sound c) (hu : m.Unlogged array) :
    Spares array m m.rolledBack :=
  ⟨congrFun h.descriptor?_undone array, h.byte?_undone_of_unlogged hu, unlogged_of_nil rfl⟩

theorem Sound.spares_recovered (h : m.Sound c) (hp : m.store.IsPersistent array)
    (hu : m.Unlogged array) :
    Spares array m m.recovered := by
  refine ⟨?_, fun i => ?_, unlogged_of_nil rfl⟩
  · rw [← h.descriptor?_undone]
    exact congrFun
      (Store.descriptor?_clearTransients { m.undone with tear := none } fun _ => true) array
  · rw [h.byte?_recovered hp, h.byte?_undone_of_unlogged hu]

theorem Sound.spares_wasReset (h : m.Sound c) (hp : m.store.IsPersistent array)
    (hu : m.Unlogged array) :
    Spares array m m.wasReset := by
  refine ⟨?_, fun i => ?_, unlogged_of_nil rfl⟩
  · rw [← h.descriptor?_undone]
    exact congrFun (Store.descriptor?_clearTransients m.undone fun _ => true) array
  · rw [h.byte?_wasReset hp, h.byte?_undone_of_unlogged hu]

theorem Spares.isPersistent (h : Spares array m m') (hp : m.store.IsPersistent array) :
    m'.store.IsPersistent array := by
  unfold Store.IsPersistent
  rw [h.descriptor]
  exact hp

theorem spares_settled (h : m.Unlogged array) : Spares array m m.settled := by
  unfold Memory.settled
  split
  · exact ⟨rfl, fun _ => rfl, unlogged_of_nil rfl⟩
  · exact .refl h

end Memory

variable {c : Config} {m m' : Memory} {array : ArrayRef}

/-! ## Writes to other arrays -/

namespace Write

variable {w : Write}

theorem spares_issued (hw : w.array ≠ array) (hu : m.Unlogged array) (hm : w.issued m = .ok m') :
    Memory.Spares array m m' := by
  rcases issued_cases hm with ⟨_, rfl⟩ | ⟨_, hlogged⟩
  · exact .refl hu
  · obtain ⟨before, _, hstore, _, hentries⟩ := entries_logged hlogged
    refine ⟨by rw [hstore], fun i => by rw [hstore], ?_⟩
    intro e he
    rw [hentries] at he
    rcases List.mem_cons.mp he with rfl | hold
    · exact hw
    · exact hu e hold

theorem spares_stored (hw : w.array ≠ array) (hu : m.Unlogged array) :
    Memory.Spares array m (w.stored m) :=
  .of_store hu (congrFun (Store.descriptor?_write _ _ _ _) array) (Store.byte?_write_of_ne hw _ _ _)

theorem spares_concluded (h : m.Sound c) (hp : m.store.IsPersistent array) (hw : w.array ≠ array)
    (hu : m.Unlogged array) : Memory.Spares array m (w.concluded m).2 := by
  have hstored := spares_stored hw hu
  unfold concluded
  split
  · exact hstored
  · dsimp only
    split
    · exact hstored.trans
        ((sound_stored h).spares_recovered (hstored.isPersistent hp) hstored.unlogged)
    · exact hstored

/-- A write spares every other array that is out of the log. -/
theorem spares_act (h : m.Sound c) (hs : m.Settled) (hp : m.store.IsPersistent array)
    (hw : w.array ≠ array) (hu : m.Unlogged array) : Memory.Spares array m (w.act.exec m).2 := by
  rw [exec_act h hs]
  rcases hm : w.issued m with e | m'
  · rw [ending]
    split
    · exact h.spares_rolledBack hu
    · exact .refl hu
  · have hissued := spares_issued hw hu hm
    have hconcluded := spares_concluded (w := w) (sound_issued h hm) (hissued.isPersistent hp) hw
      hissued.unlogged
    exact (hissued.trans hconcluded).trans (Memory.spares_settled hconcluded.unlogged)

end Write

/-! ## Operations -/

namespace Operation

/-- Whether an operation writes to an array, or flips bits of it. -/
def Names (array : ArrayRef) : Operation → Prop
  | .write w => w.array = array
  | .flip flipped _ _ => flipped = array
  | _ => False

/-- An operation that does not name an array spares it, if it is out of the log. -/
theorem spares_act (h : m.Sound c) (hs : m.Settled) (hp : m.store.IsPersistent array)
    {op : Operation} (hop : ¬op.Names array) (hu : m.Unlogged array) :
    Memory.Spares array m (op.act.exec m).2 := by
  cases op with
  | begin =>
    rw [act, Memory.exec_begin]
    split
    · exact ⟨rfl, fun _ => rfl, hu⟩
    · exact .refl hu
  | commit =>
    rw [act, Memory.exec_commit]
    split
    · exact .refl hu
    · exact ⟨rfl, fun _ => rfl, Memory.unlogged_of_nil rfl⟩
  | abort =>
    rw [act, h.exec_abort]
    split
    · exact .refl hu
    · exact h.spares_rolledBack hu
  | write w => exact Write.spares_act h hs hp hop hu
  | allocate d =>
    rw [exec_allocate]
    rcases hd : m.store.allocate d with _ | ⟨fresh, s⟩
    · exact .refl hu
    · have hne : array ≠ fresh := by
        rintro rfl
        obtain ⟨d', hd', _⟩ := hp
        rw [Store.freeRef_eq_ok (Store.freeRef_of_allocate hd)] at hd'
        cases hd'
      refine .of_store hu ?_ fun i => ?_
      · rw [h.store.descriptor?_allocate hd, if_neg hne]
      · rw [h.store.byte?_allocate hd, if_neg hne]
  | reset =>
    rw [exec_reset h]
    exact h.spares_wasReset hp hu
  | deselect =>
    rw [exec_deselect]
    exact .of_store hu (congrFun (Store.descriptor?_clearTransients _ _) array)
      (Store.byte?_clearTransients hp _)
  | arm bytes =>
    rw [exec_arm]
    exact .of_store hu rfl fun _ => rfl
  | flip flipped byte mask =>
    rw [exec_flip]
    rcases hf : m.store.flipBits flipped byte mask with _ | s
    · exact .refl hu
    · exact .of_store hu (congrFun (Store.descriptor?_flipBits hf) array)
        (Store.byte?_flipBits_of_ne hf hop)

theorem spares_run (h : m.Sound c) (hs : m.Settled) (hp : m.store.IsPersistent array)
    {ops : List Operation} (hops : ∀ op ∈ ops, ¬op.Names array) (hu : m.Unlogged array) :
    Memory.Spares array m (run m ops).2 := by
  obtain ⟨⟨_, _, hend⟩, _⟩ := kept_run (P := Memory.Spares array m)
    (fun op hop _ h' hs' hspares => hspares.trans
      (spares_act h' hs' (hspares.isPersistent hp) (hops op hop) hspares.unlogged)) h hs (.refl hu)
  exact hend

end Operation

end SmartCard
