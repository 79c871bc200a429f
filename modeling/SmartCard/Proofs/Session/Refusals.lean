-- SUMMARY: Checks of arguments, none of which ever reports a loss of power or a want of room.
import SmartCard.Proofs.Session.Issued

/-!
# Refusals

A command that is refused by a check has not touched the memory, so that no tear can have struck it
and no log can have been full. Hence no check reports either (`Refuses`), nor does what a command
reads behind its checks, and whoever sees one of those faults knows that bytes were being written.
-/

namespace SmartCard

/-- A check that does not fail for want of power or room. -/
def Refuses {α : Type} (x : Except Fault α) : Prop := ∀ e, x = .error e → e.IsRefusal

theorem refuses_ok {α : Type} (a : α) : Refuses (Except.ok a : Except Fault α) :=
  fun _ h => nomatch h

theorem refuses_error {α : Type} {e : Fault} (h : e.IsRefusal) :
    Refuses (Except.error e : Except Fault α) := fun _ he => Except.error.inj he ▸ h

theorem Refuses.map {α β : Type} {x : Except Fault α} (hx : Refuses x) (f : α → β) :
    Refuses (x.map f) := FailsOnly.map hx f

theorem Checks.refuses {α : Type} {x : Except Fault α} (h : Checks x) : Refuses x :=
  FailsOnly.mono h fun _ he => he.refusal

/-! ## Reading -/

theorem refuses_read (s : Store) (array : ArrayRef) (offset count : Nat) :
    Refuses (s.read array offset count) := fun _ => Store.read_isRefusal

theorem refuses_shortIndex (n : Nat) : Refuses (Range.shortIndex n) := by
  unfold Range.shortIndex
  split
  · exact refuses_ok _
  · exact refuses_error ⟨rfl, rfl⟩

theorem refuses_element (m : Memory) (array : ArrayRef) (index : Int16) :
    Refuses (m.element array index) :=
  fails_element (fun _ he => he.refusal) fun _ => refuses_read _ _ _ _

theorem refuses_elements (m : Memory) (array : ArrayRef) : Refuses (m.elements array) :=
  fails_elements (fun _ he => he.refusal) fun _ => refuses_read _ _ _ _

theorem refuses_payload (m : Memory) (array : ArrayRef) : Refuses (m.payload array) :=
  fails_payload (fun _ he => he.refusal) fun _ => refuses_read _ _ _ _

theorem refuses_readWord (s : Store) (array : ArrayRef) (offset : Int16) (width : Nat) :
    Refuses (Packing.readWord s array offset width) :=
  fails_readWord (fun _ he => he.refusal) fun _ => refuses_read _ _ _ _

theorem refuses_byteAt (m : Memory) (array : ArrayRef) (i : Nat) :
    Refuses (TryCounter.byteAt m array i) := (refuses_read m.store array i 1).map _

theorem refuses_compared (s : Store) (left : ArrayRef) (leftOffset : Int16) (right : ArrayRef)
    (rightOffset length : Int16) :
    Refuses (Range.compared s left leftOffset right rightOffset length) :=
  fails_compared (fun _ he => he.refusal) fun _ =>
    ⟨refuses_read _ _ _ _, refuses_read _ _ _ _⟩

theorem refuses_found (s : Store) (array : ArrayRef) (offset : Int16) (valueArray : ArrayRef)
    (valueOffset : Int16) : Refuses (Range.found s array offset valueArray valueOffset) := by
  have hP : ∀ e : Fault, e.IsCheck → e.IsRefusal := fun _ he => he.refusal
  refine fails_found hP (fun _ => ?_) (fun _ _ => refuses_read _ _ _ _) fun _ _ _ =>
    refuses_shortIndex _
  exact fails_needle hP (fun _ _ => refuses_read _ _ _ _) fun _ _ _ => refuses_read _ _ _ _

/-! ## Restorations -/

theorem refuses_cell (a : ImageArray) : Refuses a.cell := by
  unfold ImageArray.cell
  split
  · exact refuses_error ⟨rfl, rfl⟩
  · split
    · exact refuses_error ⟨rfl, rfl⟩
    · dsimp only
      split
      · exact refuses_error ⟨rfl, rfl⟩
      · split
        · split
          · exact refuses_ok _
          · exact refuses_error ⟨rfl, rfl⟩
        · exact refuses_ok _

theorem refuses_adopt (s : Store) (array : ArrayRef) (cell : Cell) :
    Refuses (s.adopt array cell) := by
  unfold Store.adopt
  split
  · exact refuses_error ⟨rfl, rfl⟩
  · dsimp only
    split
    · exact refuses_error ⟨rfl, rfl⟩
    · exact refuses_ok _

theorem refuses_adoptArrays (arrays : List ImageArray) (s : Store) :
    Refuses (Image.adoptArrays s arrays) := by
  induction arrays generalizing s with
  | nil => exact refuses_ok s
  | cons a more ih =>
    unfold Image.adoptArrays
    split
    next e he => exact refuses_error (refuses_cell a e he)
    next cell _ =>
      split
      next e he => exact refuses_error (refuses_adopt s a.array cell e he)
      next s' _ => exact ih s'

theorem refuses_undo (entries : List UndoEntry) (s : Store) :
    Refuses ((UndoLog.restore entries).exec s).1 := by
  induction entries generalizing s with
  | nil => exact refuses_ok ()
  | cons entry older ih =>
    rw [UndoLog.restore, Act.exec_bind, Store.exec_put]
    rcases hs : s.restoreBytes entry.array entry.offset entry.before with e | s'
    · exact refuses_error (Store.restoreBytes_isRefusal hs)
    · exact ih s'

theorem refuses_powerUp (c : Config) (image : Image) : Refuses (Image.powerUp c image) := by
  unfold Image.powerUp
  split
  · split
    next e he => exact refuses_error (refuses_adoptArrays _ _ e he)
    next s _ => exact Refuses.map (refuses_undo _ s) _
  · exact refuses_error ⟨rfl, rfl⟩

theorem refuses_ofBytes (bytes : List UInt8) : Refuses (Image.ofBytes bytes) := by
  unfold Image.ofBytes
  split
  · exact refuses_error ⟨rfl, rfl⟩
  · split
    · exact refuses_ok _
    · exact refuses_error ⟨rfl, rfl⟩

theorem refuses_restore (c : Config) (bytes : List UInt8) (card : Card) :
    Refuses ((Card.restore c bytes).exec card).1 := by
  unfold Act.exec Card.restore
  dsimp only
  split
  · exact refuses_error ⟨rfl, rfl⟩
  · split
    next e he => exact refuses_error (refuses_ofBytes bytes e he)
    next image _ =>
      split
      next e he => exact refuses_error (refuses_powerUp c image e he)
      next => exact refuses_ok ()

/-! ## Requests -/

/-- What a command asks is refused by the checks of its arguments only. -/
theorem Command.isRefusal_request {μ : Type} [Matcher μ] (s : Session μ) (command : Command μ) :
    Refuses (command.request s) := by
  rcases hrestore : command.isRestore with _ | _
  · refine fails_request (fun _ he => he.refusal) command hrestore fun x _ => ?_
    cases x with
    | read array offset count => exact refuses_read _ array offset count
    | short index => exact refuses_shortIndex index
    | advance | split => trivial
  · cases command
    case restore config bytes => exact fails_onCard (refuses_restore config bytes s.card) _
    all_goals cases hrestore

end SmartCard
