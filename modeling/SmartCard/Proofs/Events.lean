-- SUMMARY: The events of acts, computed along the ways in which acts are put together.
import SmartCard.Proofs.Brackets
import SmartCard.Proofs.Exec

/-!
# Events of acts

Each way of putting acts together has one equation for the events of the whole. Events only say
something beside the result: an account (`Told`) is a stream of events that can be followed, and
that has as many overflows and losses of power in it as the result says.
-/

namespace SmartCard

namespace Act

variable {σ τ α β : Type}

/-! ## Single acts -/

@[simp] theorem events_pure (a : α) (s : σ) : ((pure a : Act σ α) s).events = [] := rfl

@[simp] theorem events_fail (e : Fault) (s : σ) : ((fail e : Act σ α) s).events = [] := rfl

@[simp] theorem events_read (f : σ → α) (s : σ) : (read f s).events = [] := rfl

@[simp] theorem events_query (f : σ → Except Fault α) (s : σ) : (query f s).events = [] := rfl

@[simp] theorem events_modify (f : σ → σ) (s : σ) : (modify f s).events = [] := rfl

@[simp] theorem events_emit (e : Event) (s : σ) : ((emit e : Act σ Unit) s).events = [e] := rfl

@[simp] theorem events_note (n : Note) (s : σ) : ((note n : Act σ Unit) s).events = [] := rfl

@[simp] theorem events_step (f : σ → Except Fault (α × σ)) (s : σ) : (step f s).events = [] := by
  unfold step
  rcases f s with _ | ⟨_, _⟩ <;> rfl

/-! ## Compound acts -/

@[simp] theorem events_bind (x : Act σ α) (f : α → Act σ β) (s : σ) :
    ((x >>= f) s).events = (x s).events ++ match (x.exec s).1 with
      | .ok a => (f a (x.exec s).2).events
      | .error _ => [] := by
  rw [bind_apply, exec]
  rcases x s with ⟨_ | _, _, _, _⟩
  · exact (List.append_nil _).symm
  · rfl

@[simp] theorem events_map (f : α → β) (x : Act σ α) (s : σ) :
    ((f <$> x) s).events = (x s).events := by
  show ((x >>= fun a => pure (f a)) s).events = _
  rw [events_bind]
  rcases (x.exec s).1 with _ | _ <;> exact List.append_nil _

@[simp] theorem events_onFault (x : Act σ α) (handler : Fault → Act σ Unit) (s : σ) :
    ((x.onFault handler) s).events = (x s).events ++ match (x.exec s).1 with
      | .ok _ => []
      | .error e => (handler e (x.exec s).2).events := by
  unfold onFault exec
  rcases x s with ⟨e | _, s', _, _⟩
  · dsimp only
    congr 1
    exact (events_bind (handler e) (fun _ => fail e) s').trans (by
      rcases ((handler e).exec s').1 with _ | _ <;> exact List.append_nil _)
  · exact (List.append_nil _).symm

@[simp] theorem events_zoom (get : σ → τ) (set : σ → τ → σ) (x : Act τ α) (s : σ) :
    ((x.zoom get set) s).events = (x (get s)).events := rfl

@[simp] theorem events_ite (c : Prop) [Decidable c] (x y : Act σ α) (s : σ) :
    ((if c then x else y) s).events = if c then (x s).events else (y s).events := by
  split <;> rfl

theorem events_bind_of_ok {x : Act σ α} {f : α → Act σ β} {s s' : σ} {a : α}
    (h : x.exec s = (.ok a, s')) : ((x >>= f) s).events = (x s).events ++ (f a s').events := by
  rw [events_bind, h]

theorem events_bind_of_error {x : Act σ α} {f : α → Act σ β} {s s' : σ} {e : Fault}
    (h : x.exec s = (.error e, s')) : ((x >>= f) s).events = (x s).events := by
  rw [events_bind, h]
  exact List.append_nil _

theorem events_onFault_of_ok {x : Act σ α} {handler : Fault → Act σ Unit} {s s' : σ} {a : α}
    (h : x.exec s = (.ok a, s')) : ((x.onFault handler) s).events = (x s).events := by
  rw [events_onFault, h]
  exact List.append_nil _

theorem events_onFault_of_error {x : Act σ α} {handler : Fault → Act σ Unit} {s s' : σ}
    {e : Fault} (h : x.exec s = (.error e, s')) :
    ((x.onFault handler) s).events = (x s).events ++ (handler e s').events := by
  rw [events_onFault, h]

end Act

namespace Memory

@[simp] theorem events_onStore {α : Type} (x : Act Store α) (m : Memory) :
    (onStore x m).events = (x m.store).events := rfl

@[simp] theorem events_setTransaction (t : Transaction) (m : Memory) :
    (setTransaction t m).events = [] := rfl

end Memory

/-! ## Accounts -/

/-- Whether a result is a fault of some kind. -/
def failsBy {α : Type} (kind : Fault → Bool) : Except Fault α → Bool
  | .ok _ => false
  | .error e => kind e

@[simp] theorem failsBy_ok {α : Type} (kind : Fault → Bool) (a : α) :
    failsBy kind (.ok a : Except Fault α) = false := rfl

@[simp] theorem failsBy_error {α : Type} (kind : Fault → Bool) (e : Fault) :
    failsBy kind (.error e : Except Fault α) = kind e := rfl

@[simp] theorem failsBy_map {α β : Type} (kind : Fault → Bool) (f : α → β) (r : Except Fault α) :
    failsBy kind (r.map f) = failsBy kind r := by
  rcases r with e | a <;> rfl

/-- Events that account for a result: they lead from one bracket to another, and tell of a loss of
power or an overflow of the commit buffer exactly if the result does. Range operations are not among
them. -/
structure Told {α : Type} (b : Bracket) (r : Except Fault α) (es : List Event) (b' : Bracket) :
    Prop where
  follows : b.Follows es b'
  overflows : es.countP Event.isOverflow = (failsBy Fault.isBufferFull r).toNat
  losses : es.countP Event.isPowerLost = (failsBy Fault.isPowerLoss r).toNat
  apart : ∀ e ∈ es, e.operation? = none

namespace Told

variable {α β : Type} {b b' b'' : Bracket} {es es' : List Event} {e : Fault}

/-- Nothing happens, and nothing is told. -/
theorem silent {r : Except Fault α} (hfull : failsBy Fault.isBufferFull r = false)
    (hloss : failsBy Fault.isPowerLoss r = false) : Told b r [] b :=
  ⟨.nil, by rw [hfull]; rfl, by rw [hloss]; rfl, fun _ he => nomatch he⟩

/-- A success that is told by one event. -/
theorem one {e : Event} (a : α) (h : b.Step e b') (hfull : e.isOverflow = false)
    (hloss : e.isPowerLost = false) (hrange : e.operation? = none) : Told b (.ok a) [e] b' where
  follows := .one h
  overflows := by
    rw [List.countP_singleton, hfull]
    rfl
  losses := by
    rw [List.countP_singleton, hloss]
    rfl
  apart := by
    intro e' he
    rw [List.mem_singleton.mp he]
    exact hrange

/-- After a success the account goes on. -/
theorem append {a : α} {r : Except Fault β} (h : Told b (.ok a) es b') (h' : Told b' r es' b'') :
    Told b r (es ++ es') b'' where
  follows := h.follows.append h'.follows
  overflows := by
    rw [List.countP_append, h.overflows, h'.overflows]
    exact Nat.zero_add _
  losses := by
    rw [List.countP_append, h.losses, h'.losses]
    exact Nat.zero_add _
  apart := by
    intro e he
    exact (List.mem_append.mp he).elim (h.apart e) (h'.apart e)

/-- A fault is accounted for before the handler does its part. -/
theorem after {a : β} (h : Told b (.error e : Except Fault α) es b') (h' : Told b' (.ok a) es' b'') :
    Told b (.error e : Except Fault α) (es ++ es') b'' where
  follows := h.follows.append h'.follows
  overflows := by
    rw [List.countP_append, h.overflows, h'.overflows]
    exact Nat.add_zero _
  losses := by
    rw [List.countP_append, h.losses, h'.losses]
    exact Nat.add_zero _
  apart := by
    intro e he
    exact (List.mem_append.mp he).elim (h.apart e) (h'.apart e)

/-- What a success returns is not part of its account, but a fault is. -/
theorem map {r : Except Fault α} (h : Told b r es b') (f : α → β) : Told b (r.map f) es b' := by
  rcases r with e | a
  · exact ⟨h.follows, h.overflows, h.losses, h.apart⟩
  · exact ⟨h.follows, h.overflows, h.losses, h.apart⟩

end Told

end SmartCard
