-- SUMMARY: Until a tear strikes, an act runs as it does with no tear ahead.
import SmartCard.Proofs.Events
import SmartCard.Proofs.Memory.InRange
import SmartCard.Proofs.Memory.Tearing

/-!
# Acts with and without a tear ahead

The tear is looked at by writes only. So an act runs with a tear ahead as it does without one, with
the same result, events and notes, or else it reports that power was lost (`Act.Untorn`). For a
write this presupposes that its bytes lie within the array, since otherwise the tear decides how
many of them are tried.
-/

namespace SmartCard

variable {σ α β : Type} {c : Config} {m : Memory} {w : Write}

/-- States in which a tear can be ahead. -/
class HasTear (σ : Type) where
  /-- The same state with no tear ahead. -/
  disarm : σ → σ

export HasTear (disarm)

instance : HasTear Store := ⟨fun s => { s with tear := none }⟩

instance : HasTear Memory := ⟨Memory.untorn⟩

/-- The outcome with no tear ahead any more. -/
def Outcome.untorn [HasTear σ] (o : Outcome σ α) : Outcome σ α :=
  { o with state := disarm o.state }

/-- Whether an act runs as with no tear ahead, unless it reports that power was lost. -/
def Act.Untorn [HasTear σ] (x : Act σ α) (s : σ) : Prop :=
  .powerLost ∈ (x s).events ∨ x (disarm s) = (x s).untorn

namespace Act.Untorn

variable [HasTear σ] {s : σ} {x : Act σ α} {f : α → Act σ β}

theorem query {f : σ → Except Fault α} (hf : f (disarm s) = f s) :
    (Act.query f).Untorn s := .inr (by unfold Act.query; rw [hf]; rfl)

theorem modify {f : σ → σ} (hf : f (disarm s) = disarm (f s)) :
    (Act.modify f).Untorn s := .inr (by unfold Act.modify; rw [hf]; rfl)

theorem pure (a : α) : (Pure.pure a : Act σ α).Untorn s := .inr rfl

theorem fail (e : Fault) : (Act.fail e : Act σ α).Untorn s := .inr rfl

theorem emit (e : Event) : (Act.emit e : Act σ Unit).Untorn s := .inr rfl

theorem note (n : Note) : (Act.note n : Act σ Unit).Untorn s := .inr rfl

theorem bind (hx : x.Untorn s) (hf : ∀ a s', x.exec s = (.ok a, s') → (f a).Untorn s') :
    (x >>= f).Untorn s := by
  rcases hx with hlost | hsame
  · refine .inl ?_
    rw [events_bind]
    exact List.mem_append_left _ hlost
  · rcases hexec : x s with ⟨e | a, s', events, notes⟩
    · refine .inr ?_
      rw [hexec] at hsame
      rw [bind_of_error hexec, bind_of_error hsame]
      rfl
    · rw [hexec] at hsame
      have hnext := hf a s' (congrArg (fun o => (o.result, o.state)) hexec)
      rcases hnext with hlost | hsame'
      · refine .inl ?_
        rw [bind_of_ok hexec]
        exact List.mem_append_right _ hlost
      · refine .inr ?_
        rw [bind_of_ok hexec, bind_of_ok hsame, hsame']
        rfl

theorem onFault (hx : x.Untorn s) {handler : Fault → Act σ Unit}
    (hh : ∀ e s', x.exec s = (.error e, s') → (handler e).Untorn s') :
    (x.onFault handler).Untorn s := by
  rcases hx with hlost | hsame
  · refine .inl ?_
    rw [events_onFault]
    exact List.mem_append_left _ hlost
  · rcases hexec : x s with ⟨e | a, s', events, notes⟩
    · rw [hexec] at hsame
      have hafter : ((handler e) >>= fun _ => (Act.fail e : Act σ α)).Untorn s' :=
        .bind (hh e s' (congrArg (fun o => (o.result, o.state)) hexec)) fun _ _ _ => .fail e
      rcases hafter with hlost | hsame'
      · refine .inl ?_
        unfold Act.onFault
        rw [hexec]
        exact List.mem_append_right _ hlost
      · refine .inr ?_
        unfold Act.onFault
        rw [hexec, hsame]
        dsimp only [Outcome.untorn]
        change Act.bind _ _ _ = _ at hsame'
        rw [hsame']
        rfl
    · refine .inr ?_
      rw [hexec] at hsame
      unfold Act.onFault
      rw [hexec, hsame]
      rfl

theorem query_bind {f : σ → Except Fault α} {g : α → Act σ β}
    (hf : f (disarm s) = f s) (hg : ∀ a, f s = .ok a → (g a).Untorn s) :
    (Act.query f >>= g).Untorn s := by
  refine .bind (.query hf) fun a s' hexec => ?_
  obtain ⟨ha, rfl⟩ := Prod.mk.inj hexec
  exact hg a ha

theorem read_bind {f : σ → α} {g : α → Act σ β} (hf : f (disarm s) = f s)
    (hg : (g (f s)).Untorn s) : (Act.read f >>= g).Untorn s := by
  refine query_bind (f := fun s => .ok (f s)) (congrArg Except.ok hf) fun a ha => ?_
  cases ha
  exact hg

end Act.Untorn

/-! ## Acts on the store -/

namespace Store

theorem step_disarm {f : Store → Except Fault (α × Store)} {s : Store}
    (hf : f (disarm s) = (f s).map fun r => (r.1, disarm r.2)) :
    Act.step f (disarm s) = (Act.step f s).untorn := by
  unfold Act.step
  rw [hf]
  rcases f s with _ | ⟨_, _⟩ <;> rfl

theorem put_disarm (array : ArrayRef) (offset : Nat) (bytes : List UInt8) (s : Store) :
    put array offset bytes (disarm s) = (put array offset bytes s).untorn := by
  refine step_disarm ?_
  show (restoreBytes { s with tear := none } array offset bytes).map _ = _
  rw [restoreBytes_withTear]
  rcases s.restoreBytes array offset bytes with _ | _ <;> rfl

theorem untorn_restore (entries : List UndoEntry) (s : Store) :
    (UndoLog.restore entries).Untorn s := by
  induction entries generalizing s with
  | nil => exact .pure ()
  | cons entry older ih =>
    exact .bind (.inr (put_disarm entry.array entry.offset entry.before s)) fun _ s' _ => ih s'

end Store

namespace Memory

theorem untorn_onStore {x : Act Store α} (hx : x.Untorn m.store) : (onStore x).Untorn m := by
  rcases hx with hlost | hsame
  · exact .inl hlost
  · refine .inr ?_
    show Outcome.mk (x (disarm m.store)).result (Memory.mk (x (disarm m.store)).state m.transaction)
      (x (disarm m.store)).events (x (disarm m.store)).notes = _
    rw [hsame]
    rfl

theorem untorn_rollBackOpen (cause : AbortCause) (m : Memory) : (rollBackOpen cause).Untorn m := by
  refine .read_bind rfl ?_
  split
  · exact .pure ()
  · refine .bind (.modify rfl) fun _ m' _ => ?_
    refine .bind (untorn_onStore (Store.untorn_restore _ _)) fun _ _ _ => ?_
    exact .bind (.emit _) fun _ _ _ => .note _

theorem untorn_allocate (d : Descriptor) (m : Memory) : (allocate d).Untorn m :=
  untorn_onStore (.inr (Store.step_disarm (Operation.allocate_untorn m d)))

end Memory

/-! ## Writes -/

namespace Store

variable {s : Store} {array : ArrayRef} {offset : Nat} {bytes : List UInt8} {budget : UInt64}

theorem write_of_none (h : s.tear = none) : write array offset bytes s = put array offset bytes s :=
  by
  unfold write
  rw [Act.bind_of_ok (show Act.read Store.tear s = ⟨.ok none, s, [], []⟩ by rw [Act.read, h])]
  rfl

theorem write_of_le (h : s.tear = some budget) (hle : bytes.length ≤ budget.toNat) :
    write array offset bytes s =
      put array offset bytes { s with tear := some (budget - UInt64.ofNat bytes.length) } := by
  unfold write
  rw [Act.bind_of_ok
    (show Act.read Store.tear s = ⟨.ok (some budget), s, [], []⟩ by rw [Act.read, h])]
  dsimp only
  rw [if_neg (Nat.not_lt.mpr hle)]
  rfl

/-- A write that the budget does not cover tries the bytes that it does cover. -/
theorem write_of_lt (h : s.tear = some budget) (hlt : budget.toNat < bytes.length) :
    write array offset bytes s =
      match s.restoreBytes array offset (bytes.take budget.toNat) with
      | .ok s' =>
        ⟨.error (.tear budget.toNat bytes.length array), { s' with tear := none }, [], []⟩
      | .error e => ⟨.error e, { s with tear := some 0 }, [], []⟩ := by
  have hput : put array offset (bytes.take budget.toNat) { s with tear := some 0 } =
      match s.restoreBytes array offset (bytes.take budget.toNat) with
      | .ok s' => ⟨.ok (), { s' with tear := some 0 }, [], []⟩
      | .error e => ⟨.error e, { s with tear := some 0 }, [], []⟩ := by
    unfold put Act.step
    dsimp only
    rw [restoreBytes_withTear (some 0)]
    rcases s.restoreBytes array offset (bytes.take budget.toNat) with _ | _ <;> rfl
  unfold write
  rw [Act.bind_of_ok
    (show Act.read Store.tear s = ⟨.ok (some budget), s, [], []⟩ by rw [Act.read, h])]
  dsimp only
  rw [if_pos hlt, Act.bind_of_ok
    (show setTear (some 0) s = ⟨.ok (), { s with tear := some 0 }, [], []⟩ from rfl)]
  rcases hleading : s.restoreBytes array offset (bytes.take budget.toNat) with e | s'
  · rw [hleading] at hput
    rw [Act.bind_of_error hput]
    rfl
  · rw [hleading] at hput
    rw [Act.bind_of_ok hput]
    rfl

end Store

namespace Memory

theorem untorn_recover (m : Memory) : recover.Untorn m := by
  refine .inl ?_
  rw [recover, Act.events_bind_of_ok (Act.exec_emit _ _)]
  exact .head _

end Memory

namespace Write

theorem untorn_writeStore_of_write (h : Store.write w.array w.offset w.bytes (disarm m.store) =
    (Store.write w.array w.offset w.bytes m.store).untorn) :
    (Memory.writeStore w.array w.offset w.bytes).Untorn m := by
  refine .onFault (Memory.untorn_onStore (.inr h)) fun e m' _ => ?_
  split
  · exact m'.untorn_recover
  · exact .pure ()

/-- Bytes that can be read can be written, as many of them as there are. -/
theorem restoreBytes_of_readable {before leading : List UInt8}
    (hread : m.store.read w.array w.offset w.bytes.length = .ok before)
    (hbegins : leading <+: w.bytes) {e : Fault} :
    m.store.restoreBytes w.array w.offset leading ≠ .error e := by
  obtain ⟨cell, hcell, hfits⟩ := Store.read_eq_ok_iff.mp hread
  have hlength := (Cell.read_eq_ok_iff.mp hfits).1
  have hle := hbegins.length_le
  rw [Store.restoreBytes_eq_ok_iff.mpr ⟨cell, hcell, by omega, rfl⟩]
  nofun

/-- What can be read can be written, with a tear ahead as without one unless it strikes. -/
theorem untorn_writeStore {before : List UInt8}
    (hread : m.store.read w.array w.offset w.bytes.length = .ok before) :
    (Memory.writeStore w.array w.offset w.bytes).Untorn m := by
  have hwithout : Store.write w.array w.offset w.bytes (disarm m.store) =
      Store.put w.array w.offset w.bytes (disarm m.store) := Store.write_of_none rfl
  rcases htear : m.store.tear with _ | budget
  · refine untorn_writeStore_of_write ?_
    rw [hwithout, Store.write_of_none htear, Store.put_disarm]
  · rcases Nat.lt_or_ge budget.toNat w.bytes.length with hlt | hle
    · have hwrite := @Store.write_of_lt m.store w.array w.offset w.bytes _ htear hlt
      rcases hleading : m.store.restoreBytes w.array w.offset (w.bytes.take budget.toNat) with e | s
      · exact absurd hleading (restoreBytes_of_readable hread (List.take_prefix _ _))
      · have hexec : (Memory.onStore (Store.write w.array w.offset w.bytes)).exec m =
            (.error (.tear budget.toNat w.bytes.length w.array),
              { m with store := { s with tear := none } }) := by
          rw [hleading] at hwrite
          rw [Memory.exec_onStore, Act.exec, hwrite]
        refine .inl ?_
        rw [Memory.writeStore, Act.events_onFault_of_error hexec]
        exact List.mem_append_right _ (.head _)
    · refine untorn_writeStore_of_write ?_
      rw [hwithout, Store.write_of_le htear hle, ← Store.put_disarm]
      rfl

theorem untorn_writeLogged (w : Write) (m : Memory) :
    (Memory.writeLogged w.array w.offset w.bytes).Untorn m := by
  refine .query_bind rfl fun before hread => .read_bind rfl (.bind ?_ fun t m' hexec => ?_)
  · refine .onFault (.query rfl) fun e m' _ => ?_
    exact .bind (.emit _) fun _ _ _ => .bind (.note _) fun _ m' _ => m'.untorn_rollBackOpen _
  · obtain ⟨_, rfl⟩ := Act.exec_onFault_query_eq_ok hexec
    refine .bind (.modify rfl) fun _ m₁ hset => .bind (.emit _) fun _ m₂ hemit => ?_
    obtain ⟨_, rfl⟩ := Prod.mk.inj hset
    obtain ⟨_, rfl⟩ := Prod.mk.inj hemit
    exact untorn_writeStore hread

end Write

namespace Memory

theorem untorn_commit (m : Memory) : commit.Untorn m := by
  refine .read_bind rfl ?_
  dsimp only
  split
  · exact .fail _
  · refine .bind (.modify rfl) fun _ _ _ => .bind (.emit _) fun _ _ _ => ?_
    split
    · exact .pure ()
    · exact .note _

theorem untorn_abort (m : Memory) : abort.Untorn m := by
  refine .read_bind rfl ?_
  split
  · exact .fail _
  · exact m.untorn_rollBackOpen _

theorem untorn_begin (m : Memory) : begin.Untorn m :=
  .query_bind rfl fun _ _ => .bind (.modify rfl) fun _ _ _ => .bind (.emit _) fun _ _ _ => .note _

theorem untorn_clearTransients (ends : Lifetime → Bool) (m : Memory) :
    (clearTransients ends).Untorn m :=
  .read_bind rfl <| .bind (untorn_onStore (.modify rfl)) fun _ _ _ =>
    .bind (.emit _) fun _ _ _ => .bind (.note _) fun _ _ _ => .pure _

theorem untorn_reset (m : Memory) : reset.Untorn m :=
  .bind (m.untorn_rollBackOpen _) fun _ m' _ => m'.untorn_clearTransients _

theorem untorn_flip (array : ArrayRef) (byte : Nat) (mask : UInt8) (m : Memory) :
    (Operation.flip array byte mask).act.Untorn m := by
  refine untorn_onStore (.inr (Store.step_disarm ?_))
  unfold Store.flipBits
  have hcell : (disarm m.store).cell = m.store.cell := rfl
  rw [hcell]
  rcases m.store.cell .store array with _ | cell
  · rfl
  · simp only [Except.bind]
    rcases cell.flip? byte mask with _ | _ <;> rfl

end Memory

namespace Write

/-- Queries pass the memory on as it is. -/
theorem untorn_writeAtomic {before : List UInt8}
    (hread : m.store.read w.array w.offset w.bytes.length = .ok before) :
    (Memory.writeAtomic w.array w.offset w.bytes).Untorn m := by
  refine .query_bind rfl fun d _ => .read_bind rfl ?_
  split
  · exact untorn_writeStore hread
  · split
    · refine .bind (.modify rfl) fun _ _ _ => .bind (.emit _) fun _ m' _ => ?_
      refine .bind (.onFault (untorn_writeLogged w m') fun _ _ _ => .read_bind rfl ?_)
        fun _ m' _ => m'.untorn_commit
      split
      · exact Memory.untorn_rollBackOpen _ _
      · exact .pure ()
    · exact untorn_writeLogged w m

/-- Writes within their array, whatever their lane. -/
theorem InRange.untorn_act (hw : w.InRange m.store) (h : m.Sound c) : w.act.Untorn m := by
  obtain ⟨before, hread⟩ := hw.read h
  unfold act
  rcases w.lane with _ | _ | _ | _
  case atomic => exact untorn_writeAtomic hread
  case participating =>
    refine .query_bind rfl fun d _ => .read_bind rfl ?_
    split
    · exact untorn_writeStore hread
    · split
      · split
        · exact untorn_writeAtomic hread
        · exact untorn_writeStore hread
      · exact untorn_writeLogged w m
  case direct => exact untorn_writeStore hread
  case unconditional =>
    refine .read_bind rfl ?_
    dsimp only
    split
    · exact untorn_writeStore hread
    · exact .bind (.note _) fun _ m' hexec => (Prod.mk.inj hexec).2 ▸ untorn_writeStore hread

end Write

end SmartCard
