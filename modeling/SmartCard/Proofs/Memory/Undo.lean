-- SUMMARY: Restoring before-images: it succeeds, and each byte gets the value that its oldest entry kept.
import SmartCard.Proofs.Store.Updates
import SmartCard.Transaction.UndoLog

/-!
# Undoing writes

Before-images overlap. They are restored from the newest to the oldest, so that in the end each byte
has the value that the oldest entry covering it kept (`UndoLog.kept?`). On entries that lie within
persistent arrays the restoration cannot fail.
-/

namespace SmartCard

/-- Whether an entry keeps a byte. -/
def UndoEntry.Covers (e : UndoEntry) (array : ArrayRef) (i : Nat) : Prop :=
  e.array = array ∧ e.offset ≤ i ∧ i < e.offset + e.before.length

instance (e : UndoEntry) (array : ArrayRef) (i : Nat) : Decidable (e.Covers array i) :=
  inferInstanceAs (Decidable (_ ∧ _))

/-- Whether an entry keeps bytes of a persistent array. -/
def UndoEntry.InRange (e : UndoEntry) (s : Store) : Prop :=
  ∃ d, s.descriptor? e.array = some d ∧ d.lifetime.isPersistent = true ∧
    e.offset + e.before.length ≤ d.byteLength

/-- What the oldest entry that covers a byte kept of it. -/
def UndoLog.kept? (array : ArrayRef) (i : Nat) : List UndoEntry → Option UInt8
  | [] => none
  | e :: older =>
    (kept? array i older).or (if e.Covers array i then e.before[i - e.offset]? else none)

/-- The store after the before-images were written back. -/
def Store.undone (s : Store) (entries : List UndoEntry) : Store :=
  ((UndoLog.restore entries).exec s).2

variable {c : Config} {s s' : Store} {e : UndoEntry} {entries : List UndoEntry}

/-! ## Entries -/

theorem UndoEntry.Covers.isSome {array : ArrayRef} {i : Nat} (h : e.Covers array i) :
    (e.before[i - e.offset]?).isSome := by
  obtain ⟨_, hlow, hhigh⟩ := h
  rw [isSome_getElem?]
  omega

theorem UndoEntry.InRange.of_descriptor? (h : e.InRange s) (hd : s'.descriptor? = s.descriptor?) :
    e.InRange s' := by
  unfold InRange
  rw [hd]
  exact h

theorem UndoEntry.InRange.isPersistent (h : e.InRange s) : s.IsPersistent e.array := by
  obtain ⟨d, hd, hpersistent, _⟩ := h
  exact ⟨d, hd, hpersistent⟩

theorem UndoLog.kept?_of_covers {array : ArrayRef} {i : Nat} (h : e.Covers array i) :
    kept? array i (e :: entries) = (kept? array i entries).or e.before[i - e.offset]? := by
  rw [kept?, if_pos h]

theorem UndoLog.kept?_of_not_covers {array : ArrayRef} {i : Nat} (h : ¬e.Covers array i) :
    kept? array i (e :: entries) = kept? array i entries := by
  rw [kept?, if_neg h, Option.or_none]

theorem UndoLog.kept?_append (array : ArrayRef) (i : Nat) (newer older : List UndoEntry) :
    kept? array i (newer ++ older) = (kept? array i older).or (kept? array i newer) := by
  induction newer with
  | nil => exact (Option.or_none).symm
  | cons e newer ih => rw [List.cons_append, kept?, ih, kept?, Option.or_assoc]

/-! ## Restoring -/

namespace Store

theorem exec_restore_cons (e : UndoEntry) (older : List UndoEntry) (s : Store) :
    (UndoLog.restore (e :: older)).exec s = match s.restoreBytes e.array e.offset e.before with
      | .ok s' => (UndoLog.restore older).exec s'
      | .error fault => (.error fault, s) := by
  rw [UndoLog.restore, Act.exec_bind, exec_put]
  rcases s.restoreBytes e.array e.offset e.before with _ | _ <;> rfl

@[simp] theorem undone_nil (s : Store) : s.undone [] = s := rfl

theorem undone_cons (hs : s.restoreBytes e.array e.offset e.before = .ok s') :
    s.undone (e :: entries) = s'.undone entries := by
  rw [undone, exec_restore_cons, hs]
  rfl

/-- A byte that restored entries cover is what the oldest of them kept. -/
theorem byte?_of_restore (hs : (UndoLog.restore entries).exec s = (.ok (), s')) (array : ArrayRef)
    (i : Nat) : s'.byte? array i = (UndoLog.kept? array i entries).or (s.byte? array i) := by
  induction entries generalizing s with
  | nil =>
    cases hs
    rfl
  | cons e older ih =>
    rw [exec_restore_cons] at hs
    rcases hs₁ : s.restoreBytes e.array e.offset e.before with fault | s₁
    · rw [hs₁] at hs
      cases hs
    · rw [hs₁] at hs
      have hbyte : s₁.byte? array i =
          if e.Covers array i then e.before[i - e.offset]? else s.byte? array i :=
        byte?_restoreBytes hs₁ array i
      rw [ih hs, hbyte]
      -- The entry was written before the older ones, so it counts only where they keep nothing.
      by_cases hcovers : e.Covers array i
      · rw [UndoLog.kept?_of_covers hcovers, if_pos hcovers, Option.or_assoc,
          Option.or_of_isSome hcovers.isSome]
      · rw [UndoLog.kept?_of_not_covers hcovers, if_neg hcovers]

/-- What restoring entries within persistent arrays does. -/
structure Restored (c : Config) (entries : List UndoEntry) (s s' : Store) : Prop where
  exec : (UndoLog.restore entries).exec s = (.ok (), s')
  sound : s'.Sound c
  descriptor : s'.descriptor? = s.descriptor?
  tear : s'.tear = s.tear
  byte : ∀ array i, s'.byte? array i = (UndoLog.kept? array i entries).or (s.byte? array i)

theorem Sound.restored (h : s.Sound c) (hin : ∀ {e}, e ∈ entries → e.InRange s) :
    ∃ s', Restored c entries s s' := by
  suffices hends : ∃ s', (UndoLog.restore entries).exec s = (.ok (), s') ∧ s'.Sound c ∧
      s'.descriptor? = s.descriptor? ∧ s'.tear = s.tear by
    obtain ⟨s', hexec, hsound, hd, htear⟩ := hends
    exact ⟨s', hexec, hsound, hd, htear, byte?_of_restore hexec⟩
  induction entries generalizing s with
  | nil => exact ⟨s, rfl, h, rfl, rfl⟩
  | cons e older ih =>
    obtain ⟨d, hd, _, hfits⟩ := hin List.mem_cons_self
    obtain ⟨s₁, hs₁⟩ := h.restoreBytes_isOk hd hfits
    have hd₁ := descriptor?_restoreBytes hs₁
    obtain ⟨s', hexec, hsound, hd', htear⟩ := ih (h.restoreBytes hs₁) fun he =>
      (hin (List.mem_cons_of_mem _ he)).of_descriptor? hd₁
    refine ⟨s', ?_, hsound, hd'.trans hd₁, htear.trans (tear_restoreBytes hs₁)⟩
    rw [exec_restore_cons, hs₁]
    exact hexec

theorem Sound.restored_undone (h : s.Sound c) (hin : ∀ {e}, e ∈ entries → e.InRange s) :
    Restored c entries s (s.undone entries) := by
  obtain ⟨s', hs'⟩ := h.restored hin
  have heq : s.undone entries = s' := by rw [undone, hs'.exec]
  rw [heq]
  exact hs'

/-- Restoring looks only at the table. -/
theorem undone_withTear (tear : Option UInt64) (entries : List UndoEntry) (s : Store) :
    undone { s with tear := tear } entries = { s.undone entries with tear := tear } := by
  induction entries generalizing s with
  | nil => rfl
  | cons e older ih =>
    unfold undone
    rw [exec_restore_cons, exec_restore_cons, restoreBytes_withTear]
    rcases s.restoreBytes e.array e.offset e.before with _ | s₁
    · rfl
    · exact ih s₁

end Store

end SmartCard
