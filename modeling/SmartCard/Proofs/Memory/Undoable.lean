-- SUMMARY: Operations whose effect on persistent arrays a rollback undoes completely.
import SmartCard.Proofs.Memory.Logging

/-!
# Undoable operations

When every write to a persistent array is logged, and no bit of one is flipped, then what a rollback
would leave behind does not change while the transaction goes on (`UndoneAlike`). It is therefore
what it was when the transaction began.
-/

namespace SmartCard

/-- Whether a rollback undoes what an operation does to persistent arrays. -/
def Operation.Undoable (m : Memory) : Operation → Prop
  | .write w => m.store.IsPersistent w.array → w.logs m = .ok true
  | .flip array _ _ => ¬m.store.IsPersistent array
  | _ => True

/-- A rollback would leave the same persistent arrays behind, but for new ones, which are zero. -/
structure UndoneAlike (m m' : Memory) : Prop where
  descriptor : ∀ {array d}, m.store.descriptor? array = some d → m'.store.descriptor? array = some d
  old : ∀ {array}, m.store.IsPersistent array →
    ∀ i, m'.undone.byte? array i = m.undone.byte? array i
  new : ∀ {array}, m.store.descriptor? array = none → m'.store.IsPersistent array →
    ∀ {i b}, m'.undone.byte? array i = some b → b = 0

variable {c : Config} {m m' m'' : Memory}

namespace UndoneAlike

theorem refl (m : Memory) : UndoneAlike m m where
  descriptor := id
  old := fun _ _ => rfl
  new := by
    rintro array habsent ⟨d, hd, _⟩
    rw [habsent] at hd
    cases hd

theorem isPersistent (h : UndoneAlike m m') {array : ArrayRef} (hp : m.store.IsPersistent array) :
    m'.store.IsPersistent array := by
  obtain ⟨d, hd, hpersistent⟩ := hp
  exact ⟨d, h.descriptor hd, hpersistent⟩

theorem trans (h : UndoneAlike m m') (h' : UndoneAlike m' m'') : UndoneAlike m m'' where
  descriptor := fun hd => h'.descriptor (h.descriptor hd)
  old := fun hp i => (h'.old (h.isPersistent hp) i).trans (h.old hp i)
  new := by
    intro array habsent hp i b hb
    rcases hd : m'.store.descriptor? array with _ | d
    · exact h'.new hd hp hb
    · have hp' : m'.store.IsPersistent array := by
        obtain ⟨d', hd', hpersistent⟩ := hp
        rw [h'.descriptor hd, Option.some.injEq] at hd'
        subst hd'
        exact ⟨d, hd, hpersistent⟩
      rw [h'.old hp' i] at hb
      exact h.new habsent hp' hb

/-- No array appears, so none is new. -/
theorem of_descriptor? (hd : m'.store.descriptor? = m.store.descriptor?)
    (hold : ∀ {array}, m.store.IsPersistent array → ∀ i,
      m'.undone.byte? array i = m.undone.byte? array i) : UndoneAlike m m' where
  descriptor := by
    intro array d h
    rw [hd]
    exact h
  old := hold
  new := by
    rintro array habsent ⟨d, hpresent, _⟩
    rw [hd, habsent] at hpresent
    cases hpresent

/-- The same transaction over a store that differs in transient arrays only. -/
theorem of_store (hm : m.Sound c) {s : Store} (hs : s.Sound c)
    (hd : s.descriptor? = m.store.descriptor?)
    (hbyte : ∀ {array}, m.store.IsPersistent array → ∀ i, s.byte? array i = m.store.byte? array i) :
    UndoneAlike m { m with store := s } := by
  have hm' : Memory.Sound c { m with store := s } := hm.withStore hs fun h => by rw [hd]; exact h
  refine of_descriptor? hd fun hp i => ?_
  rw [hm'.byte?_undone, hm.byte?_undone]
  dsimp only
  rw [hbyte hp]

/-- Nothing is kept of an array that does not exist. -/
theorem kept?_eq_none (hm : m.Sound c) {array : ArrayRef}
    (habsent : m.store.descriptor? array = none) (i : Nat) :
    UndoLog.kept? array i m.transaction.log.entries = none := by
  have hentries : ∀ {e}, e ∈ m.transaction.log.entries → e.InRange m.store := hm.entries
  generalize m.transaction.log.entries = entries at hentries
  induction entries with
  | nil => rfl
  | cons e older ih =>
    rw [UndoLog.kept?_of_not_covers, ih fun he => hentries (List.mem_cons_of_mem _ he)]
    rintro ⟨rfl, _⟩
    obtain ⟨d, hd, _⟩ := hentries List.mem_cons_self
    rw [habsent] at hd
    cases hd

theorem of_allocate (hm : m.Sound c) {d : Descriptor} {fresh : ArrayRef} {s : Store}
    (hs : m.store.allocate d = .ok (fresh, s)) : UndoneAlike m { m with store := s } := by
  have hm' := Operation.sound_allocate hm hs
  have hfresh : m.store.descriptor? fresh = none := by
    obtain ⟨_, hnext, _⟩ := hm.store.allocate_eq_ok_iff.mp hs
    rw [Store.descriptor?, Table.descriptor?, (hm.store.next_free hnext).1]
    rfl
  constructor
  · intro array d' hd'
    rw [hm.store.descriptor?_allocate hs, if_neg]
    · exact hd'
    · rintro rfl
      rw [hfresh] at hd'
      cases hd'
  · rintro array ⟨d', hd', _⟩ i
    rw [hm'.byte?_undone, hm.byte?_undone]
    dsimp only
    rw [hm.store.byte?_allocate hs, if_neg]
    rintro rfl
    rw [hfresh] at hd'
    cases hd'
  · rintro array habsent ⟨d', hd', _⟩ i b hb
    rw [hm.store.descriptor?_allocate hs] at hd'
    split at hd'
    next heq =>
      rw [hm'.byte?_undone] at hb
      dsimp only at hb
      rw [kept?_eq_none hm habsent, Option.none_or, hm.store.byte?_allocate hs, if_pos heq] at hb
      exact (List.mem_replicate.mp (List.mem_of_getElem? hb)).2
    next =>
      rw [habsent] at hd'
      cases hd'

/-- A logged write changes nothing that its entry does not give back. -/
theorem of_logged (hm : m.Sound c) {w : Write} (hp : m.store.IsPersistent w.array)
    (hm' : w.logged m = .ok m') : UndoneAlike m (w.stored m') := by
  obtain ⟨before, hread, hstore, _, hentries⟩ := Write.entries_logged hm'
  have hsound := Write.sound_stored (w := w) (Write.sound_logged hm hp hm')
  have hlength := Store.length_of_read hread
  refine of_descriptor? ?_ fun {array} _ i => ?_
  · exact (Store.descriptor?_write _ _ _ _).trans (congrArg Store.descriptor? hstore)
  · rw [hsound.byte?_undone, hm.byte?_undone]
    show (UndoLog.kept? array i m'.transaction.log.entries).or _ = _
    rw [hentries]
    by_cases hcovers : UndoEntry.Covers ⟨w.array, w.offset, before⟩ array i
    · obtain ⟨rfl, hlow, hhigh⟩ := hcovers
      rw [UndoLog.kept?_of_covers ⟨rfl, hlow, hhigh⟩, Option.or_assoc,
        Option.or_of_isSome (UndoEntry.Covers.isSome ⟨rfl, hlow, hhigh⟩)]
      congr 1
      dsimp only at hlow hhigh ⊢
      rw [hlength] at hhigh
      exact Store.getElem?_of_read hread hlow hhigh
    · rw [UndoLog.kept?_of_not_covers hcovers]
      congr 1
      rw [← hstore]
      refine Store.byte?_write_of_outside (fun hin => hcovers ⟨hin.1, hin.2.1, ?_⟩) m'.store
      rw [hlength]
      exact hin.2.2

/-- Up to what it has reached, an undoable operation leaves nothing that a rollback would not undo.
-/
theorem reached (hm : m.Sound c) (hopen : m.transaction.isIdle = false) {op : Operation}
    (hop : op ≠ .commit) (hundo : op.Undoable m) : UndoneAlike m (op.reached m) := by
  cases op with
  | write w =>
    rcases hissued : w.issued m with e | m'
    · rw [Operation.reached_of_refused hissued]
      exact refl m
    · rw [Operation.reached_of_issued hissued]
      rcases Write.issued_cases hissued with ⟨hlogs, rfl⟩ | ⟨hlogs, hlogged⟩
      · have hne : ∀ {array}, m'.store.IsPersistent array → w.array ≠ array := by
          rintro array hp rfl
          have hlogs' := hundo hp
          rw [hlogs] at hlogs'
          cases hlogs'
        exact of_store hm hm.store.write (Store.descriptor?_write _ _ _ _) fun hp i =>
          Store.byte?_write_of_ne (hne hp) _ _ _ i
      · exact of_logged hm (Write.isPersistent_of_logs hm hlogs) hlogged
  | begin =>
    have heq : Operation.reached m .begin = m := by
      show (Memory.begin.exec m).2 = m
      rw [Memory.exec_begin, if_neg (by rw [hopen]; exact Bool.false_ne_true)]
    rw [heq]
    exact refl m
  | commit => exact absurd rfl hop
  | abort => exact refl m
  | reset => exact refl m
  | allocate d =>
    show UndoneAlike m ((Operation.act (.allocate d)).exec m).2
    rw [Operation.exec_allocate]
    rcases hs : m.store.allocate d with _ | ⟨fresh, s⟩
    · exact refl m
    · exact of_allocate hm hs
  | deselect =>
    show UndoneAlike m ((Operation.act .deselect).exec m).2
    rw [Operation.exec_deselect]
    exact of_store hm (hm.store.clearTransients _)
      (Store.descriptor?_clearTransients _ _) fun hp i =>
      Store.byte?_clearTransients hp _ i
  | arm bytes => exact of_store hm (hm.store.withTear _) rfl fun _ _ => rfl
  | flip array byte mask =>
    show UndoneAlike m ((Operation.act (.flip array byte mask)).exec m).2
    rw [Operation.exec_flip]
    rcases hs : m.store.flipBits array byte mask with _ | s
    · exact refl m
    · refine of_store hm (hm.store.flipBits hs) (Store.descriptor?_flipBits hs) fun hp i => ?_
      refine Store.byte?_flipBits_of_ne hs ?_ i
      rintro rfl
      exact hundo hp

end UndoneAlike

namespace Operation

/-- Without a transaction nothing is undone. -/
theorem undone_of_idle (hm : m.Sound c) (hidle : m.transaction.isIdle = true) :
    m.undone = m.store := by
  unfold Memory.undone
  rw [hm.entries_of_idle hidle, Store.undone_nil]

theorem undoneAlike_act (hm : m.Sound c) (hs : m.Settled) (hopen : m.transaction.isIdle = false)
    {op : Operation} (hop : op ≠ .commit) (hundo : op.Undoable m) :
    UndoneAlike m (op.act.exec m).2 := by
  have hreached := UndoneAlike.reached hm hopen hop hundo
  rcases act_of_open hm hs hopen hop with ⟨_, heq⟩ | ⟨hidle, hd, hbyte⟩
  · rw [heq]
    exact hreached
  · refine hreached.trans (.of_descriptor? hd fun hp i => ?_)
    rw [undone_of_idle (sound_act hm hs op) hidle, hbyte hp]

/-- A transaction of undoable operations leaves nothing that a rollback would not undo. -/
theorem Steps.undoneAlike {trace : List (Memory × Operation)} (h : Steps m trace m')
    (hm : m.Sound c)
    (hs : m.Settled) (hopen : AllOpen trace) (hop : ∀ step ∈ trace, step.2 ≠ .commit)
    (hundo : ∀ step ∈ trace, step.2.Undoable step.1) : UndoneAlike m m' := by
  induction h with
  | nil => exact .refl _
  | @cons m m' op trace _ ih =>
    have hfirst := undoneAlike_act hm hs (hopen _ List.mem_cons_self) (hop _ List.mem_cons_self)
      (hundo _ List.mem_cons_self)
    have hrest := ih (sound_act hm hs op) (settled_act hm hs op)
      (fun step hstep => hopen step (List.mem_cons_of_mem _ hstep))
      (fun step hstep => hop step (List.mem_cons_of_mem _ hstep))
      (fun step hstep => hundo step (List.mem_cons_of_mem _ hstep))
    exact hfirst.trans hrest

end Operation

end SmartCard
