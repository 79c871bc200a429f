-- SUMMARY: The operations that commands are made of, runs of them, and the invariants that every run keeps.
import SmartCard.Memory.Elements
import SmartCard.Proofs.Memory.Writes

/-!
# Operations on a memory

Commands reach the memory through a handful of operations: transactions, writes on a lane, new
arrays, card events and injected faults. A run carries operations out until one fails. Sound and
settled memories stay so.
-/

namespace SmartCard

namespace Memory

variable {m : Memory} {d : Descriptor}

theorem exec_allocate_of_ok {array : ArrayRef} {s : Store}
    (h : m.store.allocate d = .ok (array, s)) :
    (allocate d).exec m = (.ok array, { m with store := s }) := by
  simp only [allocate, exec_onStore, Act.exec_step, h]

theorem exec_allocate_of_error {e : Fault} (h : m.store.allocate d = .error e) :
    (allocate d).exec m = (.error e, m) := by
  simp only [allocate, exec_onStore, Act.exec_step, h]

end Memory

inductive Operation where
  | begin
  | commit
  | abort
  | write (w : Write)
  | allocate (d : Descriptor)
  | reset
  | deselect
  | arm (bytes : UInt64)
  | flip (array : ArrayRef) (byte : Nat) (mask : UInt8)
  deriving DecidableEq, Repr

namespace Operation

def act : Operation → Act Memory Unit
  | .begin => Memory.begin
  | .commit => Memory.commit
  | .abort => Memory.abort
  | .write w => w.act
  | .allocate d => (fun _ => ()) <$> Memory.allocate d
  | .reset => (fun _ => ()) <$> Memory.reset
  | .deselect => (fun _ => ()) <$> Memory.deselect
  | .arm bytes => Memory.onStore (Store.setTear (some bytes))
  | .flip array byte mask =>
    Memory.onStore <| .step fun s => (s.flipBits array byte mask).map fun s => ((), s)

/-- Carry operations out until one fails. -/
def run (m : Memory) : List Operation → Except Fault Unit × Memory
  | [] => (.ok (), m)
  | op :: more =>
    match op.act.exec m with
    | (.ok (), m') => run m' more
    | (.error e, m') => (.error e, m')

/-- The operations of a run that are carried out, each with the memory that it finds. -/
def trace (m : Memory) : List Operation → List (Memory × Operation)
  | [] => []
  | op :: more =>
    (m, op) :: match op.act.exec m with
      | (.ok (), m') => trace m' more
      | (.error _, _) => []

/-- Carry out what a request asks for; a refused one changes nothing. -/
def carry (m : Memory) : Except Fault (List Operation) → Except Fault Unit × Memory
  | .ok ops => run m ops
  | .error e => (.error e, m)

variable {c : Config} {m : Memory}

@[simp] theorem run_singleton (m : Memory) (op : Operation) : run m [op] = op.act.exec m := by
  rw [run]
  rcases op.act.exec m with ⟨_ | _, _⟩ <;> rfl

@[simp] theorem carry_ok (m : Memory) (ops : List Operation) : carry m (.ok ops) = run m ops := rfl

@[simp] theorem carry_pure (m : Memory) (ops : List Operation) : carry m (pure ops) = run m ops :=
  rfl

@[simp] theorem carry_error (m : Memory) (e : Fault) : carry m (.error e) = (.error e, m) := rfl

/-- A request for nothing. -/
theorem carry_map_nil {α : Type} (m : Memory) (r : Except Fault α) :
    carry m (r.map fun _ => []) = (r.map fun _ => (), m) := by
  rcases r with _ | _ <;> rfl

/-- A check in an act is a check in its request. -/
theorem effect_query_bind {α β : Type} {f : Memory → Except Fault α} {g : α → Act Memory β}
    {r : α → Except Fault (List Operation)}
    (h : ∀ a, f m = .ok a → (g a).effect m = carry m (r a)) :
    (Act.query f >>= g).effect m = carry m (f m >>= r) := by
  rcases hf : f m with e | a
  · simp only [Act.effect, Act.exec_bind, Act.exec_query, hf]
    rfl
  · rw [show (Except.ok a >>= r) = r a from rfl, ← h a hf]
    simp only [Act.effect, Act.exec_bind, Act.exec_query, hf]

/-! ## Single operations -/

theorem exec_allocate (d : Descriptor) (m : Memory) :
    (act (.allocate d)).exec m = match m.store.allocate d with
      | .ok (_, s) => (.ok (), { m with store := s })
      | .error e => (.error e, m) := by
  rw [act, Act.exec_map]
  rcases hd : m.store.allocate d with e | ⟨array, s⟩
  · rw [Memory.exec_allocate_of_error hd]
    rfl
  · rw [Memory.exec_allocate_of_ok hd]
    rfl

theorem exec_deselect (m : Memory) :
    (act .deselect).exec m =
      (.ok (), { m with store := m.store.clearTransients (· == .transientDeselect) }) := by
  simp only [act, Act.exec_map, Memory.deselect, Memory.exec_clearTransients]
  rfl

theorem exec_reset (h : m.Sound c) : (act .reset).exec m = (.ok (), m.wasReset) := by
  simp only [act, Act.exec_map, h.exec_reset]
  rfl

theorem exec_arm (bytes : UInt64) (m : Memory) :
    (act (.arm bytes)).exec m =
      (.ok (), { m with store := { m.store with tear := some bytes } }) := rfl

theorem exec_flip (array : ArrayRef) (byte : Nat) (mask : UInt8) (m : Memory) :
    (act (.flip array byte mask)).exec m = match m.store.flipBits array byte mask with
      | .ok s => (.ok (), { m with store := s })
      | .error e => (.error e, m) := by
  simp only [act, Memory.exec_onStore, Act.exec_step]
  rcases m.store.flipBits array byte mask with _ | _ <;> rfl

/-! ## Invariants -/

theorem sound_allocate (h : m.Sound c) {d : Descriptor} {array : ArrayRef} {s : Store}
    (hs : m.store.allocate d = .ok (array, s)) : Memory.Sound c { m with store := s } := by
  apply h.withStore (h.store.allocate hs)
  intro other d' hd'
  rw [h.store.descriptor?_allocate hs]
  split
  next heq =>
    rw [heq, Store.freeRef_eq_ok (Store.freeRef_of_allocate hs)] at hd'
    cases hd'
  next => exact hd'

theorem sound_act (h : m.Sound c) (hs : m.Settled) (op : Operation) :
    (op.act.exec m).2.Sound c := by
  cases op with
  | begin =>
    rw [act, Memory.exec_begin]
    split
    · exact ⟨h.store, h.entries, h.max_eq, h.overhead_eq, fun hidle => by cases hidle⟩
    · exact h
  | commit =>
    rw [act, Memory.exec_commit]
    split
    · exact h
    · dsimp only
      rw [h.close_eq]
      exact .ofStore h.store
  | abort =>
    rw [act, h.exec_abort]
    split
    · exact h
    · exact h.rolledBack
  | write w => exact Write.sound_act h hs
  | allocate d =>
    rw [exec_allocate]
    rcases hd : m.store.allocate d with _ | ⟨array, s⟩
    · exact h
    · exact sound_allocate h hd
  | reset =>
    rw [exec_reset h]
    exact h.wasReset
  | deselect =>
    rw [exec_deselect]
    refine h.withStore (h.store.clearTransients _) fun hd => ?_
    rw [Store.descriptor?_clearTransients]
    exact hd
  | arm bytes =>
    rw [exec_arm]
    exact h.withStore (h.store.withTear _) id
  | flip array byte mask =>
    rw [exec_flip]
    rcases hf : m.store.flipBits array byte mask with _ | s
    · exact h
    · refine h.withStore (h.store.flipBits hf) fun hd => ?_
      rw [Store.descriptor?_flipBits hf]
      exact hd

theorem settled_act (h : m.Sound c) (hs : m.Settled) (op : Operation) :
    (op.act.exec m).2.Settled := by
  cases op with
  | begin =>
    rw [act, Memory.exec_begin]
    split
    · intro himplicit
      cases himplicit
    · exact hs
  | commit =>
    rw [act, Memory.exec_commit]
    split
    · exact hs
    · exact Memory.settled_of_idle rfl
  | abort =>
    rw [act, h.exec_abort]
    split
    · exact hs
    · exact Memory.settled_of_idle rfl
  | write w => exact Write.settled_act h hs
  | allocate d =>
    rw [exec_allocate]
    rcases m.store.allocate d with _ | ⟨_, _⟩
    · exact hs
    · exact hs
  | reset =>
    rw [exec_reset h]
    exact Memory.settled_of_idle rfl
  | deselect => exact hs
  | arm bytes => exact hs
  | flip array byte mask =>
    rw [exec_flip]
    rcases m.store.flipBits array byte mask with _ | _
    · exact hs
    · exact hs

/-- What each operation of a run keeps holds with each operation, and at the end of the run. -/
theorem kept_run {P : Memory → Prop} {ops : List Operation}
    (hkept : ∀ op ∈ ops, ∀ m : Memory, m.Sound c → m.Settled → P m → P (op.act.exec m).2)
    (h : m.Sound c) (hs : m.Settled) (hp : P m) :
    ((run m ops).2.Sound c ∧ (run m ops).2.Settled ∧ P (run m ops).2) ∧
      ∀ {m' : Memory} {op : Operation}, (m', op) ∈ trace m ops →
        m'.Sound c ∧ m'.Settled ∧ P m' := by
  induction ops generalizing m with
  | nil => exact ⟨⟨h, hs, hp⟩, fun hmem => nomatch hmem⟩
  | cons first more ih =>
    have hsound := sound_act h hs first
    have hsettled := settled_act h hs first
    have hfirst := hkept first List.mem_cons_self m h hs hp
    rw [run, trace]
    generalize first.act.exec m = r at hsound hsettled hfirst
    rcases r with ⟨_ | _, m₁⟩
    · refine ⟨⟨hsound, hsettled, hfirst⟩, fun hmem => ?_⟩
      obtain ⟨rfl, _⟩ := Prod.mk.inj (List.mem_singleton.mp hmem)
      exact ⟨h, hs, hp⟩
    · obtain ⟨hend, hmore⟩ :=
        ih (fun op hop => hkept op (List.mem_cons_of_mem _ hop)) hsound hsettled hfirst
      refine ⟨hend, fun hmem => ?_⟩
      rcases List.mem_cons.mp hmem with heq | hrest
      · obtain ⟨rfl, _⟩ := Prod.mk.inj heq
        exact ⟨h, hs, hp⟩
      · exact hmore hrest

/-- Sound and settled memories stay so in a run. -/
theorem sound_run (h : m.Sound c) (hs : m.Settled) (ops : List Operation) :
    (run m ops).2.Sound c ∧ (run m ops).2.Settled := by
  obtain ⟨⟨hsound, hsettled, _⟩, _⟩ :=
    kept_run (P := fun _ => True) (fun _ _ _ _ _ _ => trivial) h hs trivial
  exact ⟨hsound, hsettled⟩

theorem sound_trace (h : m.Sound c) (hs : m.Settled) {ops : List Operation} {m' : Memory}
    {op : Operation} (hmem : (m', op) ∈ trace m ops) : m'.Sound c ∧ m'.Settled := by
  obtain ⟨_, hbefore⟩ := kept_run (P := fun _ => True) (fun _ _ _ _ _ _ => trivial) h hs trivial
  obtain ⟨hsound, hsettled, _⟩ := hbefore hmem
  exact ⟨hsound, hsettled⟩

end Operation

end SmartCard
