-- SUMMARY: Whatever is asked of a card, it keeps its memory in order and accounts for what it does to it.
import SmartCard.Proofs.Memory.Accounts
import SmartCard.Proofs.Session.Refusals

/-!
# Orderly acts

An act is orderly if it finds and leaves memories in order and accounts for what it does to them
(`Act.Orderly`). The acts that commands are made of are orderly because their parts are: checks that
refuse, and operations on the memory. Two kinds of commands stand apart (`Session.orderly_perform`):
those that replace the card, and the range operations, which report on themselves when all else is
done.
-/

namespace SmartCard

variable {σ τ α β μ : Type} {c : Config}

/-- What memories are between operations. -/
structure Memory.InOrder (c : Config) (m : Memory) : Prop where
  sound : m.Sound c
  settled : m.Settled
  room : m.transaction.log.used ≤ m.transaction.log.max

/-- States with a memory in them. -/
class HasMemory (σ : Type) where
  memory : σ → Memory

export HasMemory (memory)

instance : HasMemory Memory := ⟨id⟩

instance : HasMemory Card := ⟨Card.memory⟩

instance : HasMemory (Bench μ) := ⟨fun b => b.card.memory⟩

instance : HasMemory (Session μ) := ⟨fun s => s.card.memory⟩

/-- The bracket that the memory of a state is in. -/
def bracketOf [HasMemory σ] (s : σ) : Bracket := (memory s).bracket

/-- Acts that find memories in order and leave them so, and account for what they do. -/
structure Act.Orderly [HasMemory σ] (c : Config) (x : Act σ α) : Prop where
  inOrder : ∀ s, (memory s).InOrder c → (memory (x.exec s).2).InOrder c
  accounts : ∀ s, (memory s).InOrder c → x.Accounts bracketOf s

/-! ## Composition -/

namespace Act.Orderly

variable [HasMemory σ] {x : Act σ α} {f : α → Act σ β}

theorem query {f : σ → Except Fault α} (hrefuses : ∀ s, Refuses (f s)) :
    (Act.query f).Orderly c where
  inOrder := fun _ h => h
  accounts := fun s _ => .query (hrefuses s)

theorem read (f : σ → α) : (Act.read f).Orderly c :=
  query (f := fun s => .ok (f s)) fun _ => refuses_ok _

/-- A change beside the memory. -/
theorem modify {f : σ → σ} (hmemory : ∀ s, memory (f s) = memory s) :
    (Act.modify f).Orderly c where
  inOrder := by
    intro s h
    show (memory (f s)).InOrder c
    rw [hmemory]
    exact h
  accounts := fun s _ => .modify (congrArg Memory.bracket (hmemory s))

theorem pure (a : α) : (Pure.pure a : Act σ α).Orderly c where
  inOrder := fun _ h => h
  accounts := fun _ _ => .pure a

theorem fail {e : Fault} (he : e.IsRefusal) : (Act.fail e : Act σ α).Orderly c where
  inOrder := fun _ h => h
  accounts := fun _ _ => .fail he

theorem note (n : Note) : (Act.note n : Act σ Unit).Orderly c where
  inOrder := fun _ h => h
  accounts := fun _ _ => .note n

theorem bind (hx : x.Orderly c) (hf : ∀ a, (f a).Orderly c) : (x >>= f).Orderly c where
  inOrder := by
    intro s h
    have hs := hx.inOrder s h
    rw [exec_bind]
    generalize x.exec s = r at hs
    rcases r with ⟨_ | a, s'⟩
    · exact hs
    · exact (hf a).inOrder s' hs
  accounts := by
    intro s h
    have hs := hx.inOrder s h
    refine (hx.accounts s h).bind fun a s' hexec => ?_
    rw [hexec] at hs
    exact (hf a).accounts s' hs

theorem map (hx : x.Orderly c) (f : α → β) : (f <$> x).Orderly c := hx.bind fun a => .pure (f a)

theorem ite {p : Prop} [Decidable p] {y : Act σ α} (hx : x.Orderly c) (hy : y.Orderly c) :
    (if p then x else y).Orderly c := by
  split
  · exact hx
  · exact hy

/-- An act on a part of the state, in which the memory is. -/
theorem zoom [HasMemory τ] {get : σ → τ} {set : σ → τ → σ} {x : Act τ α} (hx : x.Orderly c)
    (hget : ∀ s, memory (get s) = memory s) (hset : ∀ s t, memory (set s t) = memory t) :
    (x.zoom get set).Orderly c where
  inOrder := by
    intro s h
    rw [← hget] at h
    show (memory (set s (x.exec (get s)).2)).InOrder c
    rw [hset]
    exact hx.inOrder (get s) h
  accounts := by
    intro s h
    rw [← hget] at h
    have haccounts := hx.accounts (get s) h
    unfold Accounts bracketOf at haccounts ⊢
    show Told (memory s).bracket (x (get s)).result (x (get s)).events
      (memory (set s (x (get s)).state)).bracket
    rw [hset, ← hget]
    exact haccounts

end Act.Orderly

/-! ## Operations on the memory -/

namespace Memory

/-- Every operation leaves memories in order. -/
theorem InOrder.act {m : Memory} (h : m.InOrder c) (op : Operation) :
    (op.act.exec m).2.InOrder c :=
  ⟨op.sound_act h.sound h.settled, op.settled_act h.sound h.settled,
    op.used_le_act h.sound h.settled h.room⟩

/-- So does an act that does what an operation does. -/
theorem InOrder.of_operation {m : Memory} (h : m.InOrder c) (op : Operation) {x : Act Memory α}
    (hx : op.act = (fun _ => ()) <$> x) : (x.exec m).2.InOrder c := by
  have hm := h.act op
  rw [hx, Act.exec_map] at hm
  exact hm

theorem orderly_begin : begin.Orderly c :=
  ⟨fun _ h => h.act .begin, fun _ h => h.sound.accounts_begin⟩

theorem orderly_commit : commit.Orderly c :=
  ⟨fun _ h => h.act .commit, fun m _ => m.accounts_commit⟩

theorem orderly_abort : abort.Orderly c :=
  ⟨fun _ h => h.act .abort, fun _ h => h.sound.accounts_abort⟩

theorem orderly_reset : reset.Orderly c :=
  ⟨fun _ h => h.of_operation .reset rfl, fun _ h => h.sound.accounts_reset⟩

theorem orderly_arm (budget : UInt64) : (Operation.arm budget).act.Orderly c :=
  ⟨fun _ h => h.act _, fun _ h => Operation.accounts_act h.sound h.room _⟩

theorem orderly_deselect : deselect.Orderly c :=
  ⟨fun _ h => h.of_operation .deselect rfl, fun m _ => accounts_clearTransients _ m⟩

theorem orderly_allocate (d : Descriptor) : (allocate d).Orderly c :=
  ⟨fun _ h => h.of_operation (.allocate d) rfl, fun m _ => accounts_allocate d m⟩

theorem orderly_flip (array : ArrayRef) (byte : Nat) (mask : UInt8) :
    (Operation.flip array byte mask).act.Orderly c :=
  ⟨fun _ h => h.act _, fun _ h => Operation.accounts_act h.sound h.room _⟩

end Memory

/-- Writes are orderly, whatever their lane. -/
theorem Write.orderly (w : Write) : w.act.Orderly c :=
  ⟨fun _ h => h.act (.write w), fun _ h => accounts_act h.sound h.room w⟩

namespace Memory

theorem orderly_writeAtomic (array : ArrayRef) (offset : Nat) (bytes : List UInt8) :
    (writeAtomic array offset bytes).Orderly c := Write.orderly ⟨.atomic, array, offset, bytes⟩

theorem orderly_writeParticipating (array : ArrayRef) (offset : Nat) (bytes : List UInt8) :
    (writeParticipating array offset bytes).Orderly c :=
  Write.orderly ⟨.participating, array, offset, bytes⟩

theorem orderly_writeDirect (array : ArrayRef) (offset : Nat) (bytes : List UInt8) :
    (writeDirect array offset bytes).Orderly c := Write.orderly ⟨.direct, array, offset, bytes⟩

theorem orderly_writeUnconditional (array : ArrayRef) (offset : Nat) (bytes : List UInt8) :
    (writeUnconditional array offset bytes).Orderly c :=
  Write.orderly ⟨.unconditional, array, offset, bytes⟩

/-! ## Acts that write -/

theorem orderly_makePersistent (kind : Kind) (length : Int16) :
    (makePersistent kind length).Orderly c :=
  .bind (.query fun _ => (checks_arrayLength _ _).refuses) fun _ => orderly_allocate _

theorem orderly_makeTransient (kind : Kind) (length : Int16) (event : UInt8) :
    (makeTransient kind length event).Orderly c := by
  unfold makeTransient
  split
  · exact .fail ⟨rfl, rfl⟩
  · refine .ite ?_ (.fail ⟨rfl, rfl⟩)
    exact .bind (.query fun _ => (checks_arrayLength _ _).refuses) fun _ => orderly_allocate _

theorem orderly_setElement (array : ArrayRef) (index : Int16) (value : Int32) :
    (setElement array index value).Orderly c :=
  .bind (.query fun m => (checks_slot m array index 1).refuses) fun _ =>
    orderly_writeParticipating _ _ _

theorem orderly_loadElements (array : ArrayRef) (values : List Int32) :
    (loadElements array values).Orderly c :=
  .ite (.fail ⟨rfl, rfl⟩) <|
    .bind (.query fun m => (checks_slot m array 0 values.length).refuses) fun _ =>
      .ite (.pure _) (orderly_writeParticipating _ _ _)

end Memory

open Memory

theorem Packing.orderly_writeWord (array : ArrayRef) (offset : Int16) (word : UInt32)
    (width : Nat) : (writeWord array offset word width).Orderly c :=
  .bind (.query fun m => (checks_window m.store array offset width).refuses) fun _ =>
    .bind (orderly_writeParticipating _ _ _) fun _ => .pure _

namespace Integrity

theorem orderly_make (supported : Bool) (kind : Kind) (memoryType : UInt8) (length : Int16) :
    (make supported kind memoryType length).Orderly c :=
  .bind (.query fun _ => (checks_descriptorFor _ _ _ _).refuses) fun _ =>
    .bind (orderly_allocate _) fun _ => .bind (.note _) fun _ => .pure _

theorem orderly_check (array : ArrayRef) : (check array).Orderly c :=
  .bind (.query fun m => (checks_sensitiveCell m.store array).refuses) fun _ =>
    .ite (.pure _) (.bind (.note _) fun _ => .fail ⟨rfl, rfl⟩)

theorem orderly_clear (array : ArrayRef) : (clear array).Orderly c :=
  .bind (.query fun m => (checks_sensitiveCell m.store array).refuses) fun _ =>
    .ite (.pure _) (orderly_writeAtomic _ _ _)

end Integrity

theorem Range.orderly_write (p : Protection) (array : ArrayRef) (offset : Nat)
    (bytes : List UInt8) : (write p array offset bytes).Orderly c := by
  refine .ite (.pure _) ?_
  cases p with
  | atomic => exact orderly_writeAtomic _ _ _
  | nonAtomic => exact orderly_writeDirect _ _ _

namespace TryCounter

theorem orderly_refill (array : ArrayRef) (limit : UInt8) : (refill array limit).Orderly c :=
  .bind (.query fun _ => (checks_checkLimit _).refuses) fun _ =>
    orderly_writeUnconditional _ _ _

theorem orderly_make (limit : UInt8) : (make limit).Orderly c :=
  .bind (.query fun _ => (checks_checkLimit _).refuses) fun _ =>
    .bind (orderly_allocate _) fun _ => .bind (orderly_refill _ _) fun _ => .pure _

theorem orderly_spend (array : ArrayRef) : (spend array).Orderly c :=
  .bind (.query fun m => refuses_byteAt m array 1) fun _ =>
    .bind (orderly_writeUnconditional _ _ _) fun _ => .pure _

theorem orderly_restoreTries (array : ArrayRef) : (restoreTries array).Orderly c :=
  .bind (.query fun m => refuses_byteAt m array 0) fun _ =>
    orderly_writeUnconditional _ _ _

end TryCounter

/-! ## Cards and benches -/

namespace Card

theorem orderly_onMemory {x : Act Memory α} (hx : x.Orderly c) : (onMemory x).Orderly c where
  inOrder := fun card h => hx.inOrder card.memory h
  accounts := fun card h => hx.accounts card.memory h

/-- What kinds of arrays there are depends on the configuration, which stays. -/
theorem orderly_makeSensitiveArray (kind : Kind) (memoryType : UInt8) (length : Int16) :
    (makeSensitiveArray kind memoryType length).Orderly c where
  inOrder := fun card h => (orderly_onMemory (Integrity.orderly_make _ _ _ _)).inOrder card h
  accounts := fun card h => (orderly_onMemory (Integrity.orderly_make _ _ _ _)).accounts card h

end Card

namespace Bench

theorem orderly_onCard {x : Act Card α} (hx : x.Orderly c) :
    (onCard x : Act (Bench μ) α).Orderly c :=
  .zoom hx (fun _ => rfl) fun _ _ => rfl

theorem orderly_onMemory {x : Act Memory α} (hx : x.Orderly c) :
    (onMemory x : Act (Bench μ) α).Orderly c := orderly_onCard (Card.orderly_onMemory hx)

/-- An act on the template alone, which reports nothing. -/
theorem orderly_onTemplate {x : Act (Template μ) α} (hsilent : ∀ t, (x t).events = [])
    (hrefuses : ∀ t, Refuses (x t).result) : (onTemplate x).Orderly c where
  inOrder := fun _ h => h
  accounts := by
    intro b _
    show Told (memory b).bracket (x b.template).result (x b.template).events (memory b).bracket
    rw [hsilent]
    rcases hr : (x b.template).result with e | a
    · exact .refused (hrefuses b.template e hr)
    · exact .nothing a

theorem orderly_update (f : Template μ → Template μ) : (update f).Orderly c :=
  orderly_onTemplate (fun _ => rfl) fun _ => refuses_ok ()

theorem orderly_settle (score : Int16) : (settle score : Act (Bench μ) Int16).Orderly c := by
  refine .bind (.read _) fun t => ?_
  rcases hscore : MatchOutcome.ofScore score with e | _ | _ | _
  · exact .bind (orderly_update _) fun _ => .fail (checks_ofScore score e hscore).refusal
  · refine .bind (orderly_update _) fun _ => .bind (orderly_onMemory ?_) fun _ => .pure _
    exact .bind (TryCounter.orderly_restoreTries _) fun _ => .note _
  · refine .bind (orderly_update _) fun _ => .bind (orderly_onMemory ?_) fun _ => .pure _
    exact .bind (TryCounter.orderly_spend _) fun _ => .note _
  · exact .bind (orderly_update _) fun _ => .pure _

theorem orderly_resetTryLimit (limit : UInt8) :
    (resetTryLimit limit : Act (Bench μ) Unit).Orderly c :=
  .bind (.read _) fun _ =>
    .bind (orderly_onMemory (TryCounter.orderly_refill _ _)) fun _ => orderly_update _

variable [Matcher μ]

theorem orderly_consult_settle (candidate : List UInt8) (phase : MatchPhase) :
    (do
      let score ← consult candidate phase
      settle score : Act (Bench μ) Int16).Orderly c := by
  refine .bind ?_ orderly_settle
  exact .bind (.read _) fun _ => .bind (orderly_update _) fun _ => .pure _

theorem orderly_initMatch (candidate : List UInt8) :
    (initMatch candidate : Act (Bench μ) Int16).Orderly c := by
  refine .bind (.query fun b => (checks_requireInitialized b.template).refuses) fun _ =>
    .bind (orderly_update _) fun _ => .bind (.read _) fun t =>
      .bind (.query fun b => refuses_byteAt b.card.memory t.counter 1) fun _ => ?_
  refine .ite ?_ (orderly_consult_settle candidate .initial)
  exact .bind (orderly_onMemory (.note _)) fun _ => .pure _

theorem orderly_matchData (candidate : List UInt8) :
    (matchData candidate : Act (Bench μ) Int16).Orderly c :=
  .bind (.read _) fun _ =>
    .ite (orderly_consult_settle candidate .continuation) (.fail ⟨rfl, rfl⟩)

end Bench

/-! ## Commands -/

namespace Session

theorem orderly_onCard {x : Act Card α} (hx : x.Orderly c) :
    (onCard x : Act (Session μ) α).Orderly c :=
  .zoom hx (fun _ => rfl) fun _ _ => rfl

theorem orderly_onMemory {x : Act Memory α} (hx : x.Orderly c) :
    (onCard (Card.onMemory x) : Act (Session μ) α).Orderly c :=
  orderly_onCard (Card.orderly_onMemory hx)

theorem orderly_askCard {f : Card → Except Fault α} (hrefuses : ∀ card, Refuses (f card)) :
    (askCard f : Act (Session μ) α).Orderly c := .query fun s => hrefuses s.card

theorem orderly_onTelemetry (f : Telemetry → α × Telemetry) :
    (onTelemetry f : Act (Session μ) α).Orderly c where
  inOrder := fun _ h => h
  accounts := fun _ _ => .nothing _

theorem onBench_of_none {s : Session μ} {position : Nat} (ht : s.templates[position]? = none)
    (x : Act (Bench μ) α) :
    onBench position x s = ⟨.error (.unknownTemplate position), s, [], []⟩ := by
  unfold onBench
  rw [ht]

theorem onBench_of_some {s : Session μ} {position : Nat} {t : Template μ}
    (ht : s.templates[position]? = some t) (x : Act (Bench μ) α) :
    onBench position x s = ⟨(x ⟨s.card, t⟩).result,
      { s with
        card := (x ⟨s.card, t⟩).state.card
        templates := s.templates.set position (x ⟨s.card, t⟩).state.template },
      (x ⟨s.card, t⟩).events, (x ⟨s.card, t⟩).notes⟩ := by
  unfold onBench
  rw [ht]

theorem orderly_onBench (position : Nat) {x : Act (Bench μ) α} (hx : x.Orderly c) :
    (onBench position x).Orderly c where
  inOrder := by
    intro s h
    rcases ht : s.templates[position]? with _ | t
    · rw [Act.exec, onBench_of_none ht]
      exact h
    · rw [Act.exec, onBench_of_some ht]
      exact hx.inOrder ⟨s.card, t⟩ h
  accounts := by
    intro s h
    unfold Act.Accounts
    rcases ht : s.templates[position]? with _ | t
    · rw [onBench_of_none ht]
      exact .refused ⟨rfl, rfl⟩
    · rw [onBench_of_some ht]
      exact hx.accounts ⟨s.card, t⟩ h

theorem orderly_makeTemplate (bioType limit : UInt8) (matcher : μ) :
    (makeTemplate bioType limit matcher).Orderly c := by
  refine .bind (orderly_onCard ?_) fun t => ?_
  · exact .bind (Card.orderly_onMemory (TryCounter.orderly_make limit)) fun _ => .pure _
  · refine .bind (.read _) fun _ => .bind ?_ fun _ => .pure _
    exact .modify fun _ => rfl

end Session

end SmartCard
