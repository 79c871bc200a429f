-- SUMMARY: The commands that make arrays, how each of them ends, and that no other command makes one.
import SmartCard.Proofs.Session.Rejections
import SmartCard.Proofs.Store.Allocation

/-!
# Making arrays in a session

Three commands make an array and a fourth makes the counter of a new template. What an acceptable
command asks for is `Command.Makes`, and there is one law for all four of them (`Command.Making`):
the array is there afterwards if the store had room for it, and otherwise nothing has changed. No
other command makes an array, so that these are the only ones that touch the pools or the next
reference.
-/

namespace SmartCard

variable {μ : Type} {c : Config} {m m' : Memory} {d : Descriptor}

/-! ## Acts -/

/-- What comes of making an array in a memory. -/
def Memory.allocated (d : Descriptor) (m : Memory) : Except Fault ArrayRef × Memory :=
  match m.store.allocate d with
  | .ok (array, s) => (.ok array, { m with store := s })
  | .error e => (.error e, m)

theorem Memory.exec_allocate (d : Descriptor) (m : Memory) :
    (allocate d).exec m = m.allocated d := by
  unfold allocated
  rcases hs : m.store.allocate d with e | ⟨array, s⟩
  · exact exec_allocate_of_error hs
  · exact exec_allocate_of_ok hs

theorem Memory.arrayLength_of_index? {length : Int16} {n : Nat} (h : index? length = some n)
    (origin : Origin) : arrayLength origin length = .ok n := by
  unfold arrayLength
  rw [h]

theorem index?_le {value : Int16} {n : Nat} (h : index? value = some n) : n ≤ maxArrayLength := by
  unfold index? at h
  split at h
  · cases h
  · cases h
    have hlt := value.toInt_lt
    unfold maxArrayLength
    omega

namespace Command

/-- What an acceptable command asks to make. The length is none that is negative, and the kind, the
memory and the limit are such as the command requires. -/
inductive Makes (c : Config) : Command μ → Descriptor → Prop where
  | persistent {kind : Kind} {length : Int16} {n : Nat} :
      index? length = some n →
      Makes c (.makePersistent kind length) ⟨kind, n, .persistent, false⟩
  | transient {kind : Kind} {length : Int16} {event : UInt8} {lifetime : Lifetime} {n : Nat} :
      Lifetime.ofEvent? event = some lifetime → kind.allowsTransient = true →
      index? length = some n →
      Makes c (.makeTransient kind length event) ⟨kind, n, lifetime, false⟩
  | sensitive {kind : Kind} {memoryType : UInt8} {length : Int16} {lifetime : Lifetime} {n : Nat} :
      c.integritySensitiveSupported = true → kind.isPrimitive = true →
      Lifetime.ofMemoryType? memoryType = some lifetime → index? length = some n →
      Makes c (.makeSensitive kind memoryType length) ⟨kind, n, lifetime, true⟩
  | counter {bioType limit : UInt8} {matcher : μ} :
      limit ≠ 0 → Makes c (.makeTemplate bioType limit matcher) TryCounter.descriptor

/-- Commands that make arrays. -/
def allocates : Command μ → Bool
  | .makePersistent .. | .makeTransient .. | .makeSensitive .. | .makeTemplate .. => true
  | _ => false

/-- Operations none of which makes an array. -/
def MakeNone (ops : List Operation) : Prop := ∀ op ∈ ops, ∀ d, op ≠ .allocate d

/-- How a command answers that has made an array. A new template may lose power in the first write
to its counter, which is there by then. -/
def Answers (s : Session μ) : Command μ → ArrayRef → Except Fault Reply → Prop
  | .makeTemplate .., array, r =>
    r = .ok (.template s.templates.length array) ∨ ∃ e, r = .error e ∧ e.isPowerLoss = true
  | _, array, r => r = .ok (.array array)

theorem Makes.length_le {command : Command μ} (h : command.Makes c d) :
    d.length ≤ maxArrayLength := by
  cases h with
  | persistent hn => exact index?_le hn
  | transient _ _ hn => exact index?_le hn
  | sensitive _ _ _ hn => exact index?_le hn
  | counter => decide

/-- How a command ends that is to make an array. -/
inductive Making (s : Session μ) (command : Command μ) (d : Descriptor) :
    Except Fault Reply × Card → Prop where
  | made {r : Except Fault Reply} {card : Card} {array : ArrayRef} :
      s.card.memory.store.Admits s.card.config d → command.Answers s array r →
      Store.Adds d s.card.memory.store array card.memory.store → Making s command d (r, card)
  | exhausted :
      s.card.memory.store.Exhausted → Making s command d (.error .referencesExhausted, s.card)
  | full {bytes available : UInt32} :
      ¬s.card.memory.store.Exhausted → ¬s.card.memory.store.Admits s.card.config d →
      Making s command d (.error (.poolExhausted d.lifetime bytes available), s.card)

end Command

namespace Session

variable [Matcher μ] {s : Session μ} {command : Command μ}

/-! ## Acceptable commands -/

/-- A command that does nothing but make an array. -/
theorem Sound.making_of_exec (h : s.Sound) (hlength : d.length ≤ maxArrayLength)
    {x : Act Memory ArrayRef} (hx : x.exec s.card.memory = s.card.memory.allocated d)
    (hperform : (perform command).exec s = (Reply.array <$> onCard (Card.onMemory x)).exec s)
    (hanswers : ∀ array, command.Answers s array (.ok (.array array))) :
    command.Making s d ((Session.step command s).result, (Session.step command s).state.card) := by
  have hexec : ((Session.step command s).result, (Session.step command s).state.card) =
      ((s.card.memory.allocated d).1.map Reply.array,
        { s.card with memory := (s.card.memory.allocated d).2 }) := by
    show (((perform command).exec s).1, ((perform command).exec s).2.card) = _
    rw [hperform, Act.exec_map, onCard, Act.exec_zoom, Card.exec_onMemory, hx]
  rw [hexec]
  have hallocation := h.memory.store.allocation hlength
  unfold Memory.allocated
  generalize s.card.memory.store.allocate d = r at hallocation
  cases hallocation with
  | made hadmits _ hadds => exact .made hadmits (hanswers _) hadds
  | exhausted hexhausted => exact .exhausted hexhausted
  | full hleft hfull => exact .full hleft hfull

omit [Matcher μ] in
theorem exec_make_allocate {limit : UInt8} (hlimit : limit ≠ 0) (m : Memory) :
    (TryCounter.make limit).exec m = match m.allocated TryCounter.descriptor with
      | (.ok array, m₁) =>
        let r := (Memory.writeUnconditional array 0 [limit, limit]).exec m₁
        (r.1.map fun _ => array, r.2)
      | (.error e, m₁) => (.error e, m₁) := by
  have hcheck : TryCounter.checkLimit limit = .ok () := if_neg hlimit
  unfold TryCounter.make TryCounter.descriptor
  rw [Act.exec_query_bind_of_ok (fun _ => TryCounter.checkLimit limit) hcheck, Act.exec_bind,
    Memory.exec_allocate]
  generalize m.allocated _ = r
  rcases r with ⟨e | array, m₁⟩
  · rfl
  · dsimp only
    unfold TryCounter.refill
    rw [Act.exec_bind, Act.exec_query_bind_of_ok (fun _ => TryCounter.checkLimit limit) hcheck]
    rcases (Memory.writeUnconditional array 0 [limit, limit]).exec m₁ with ⟨_ | _, m'⟩
    · rfl
    · rfl

/-- A new template gets its counter if there is room for it, and then the first write to the counter
may lose power. -/
theorem Sound.making_template (h : s.Sound) {bioType limit : UInt8} {matcher : μ}
    (hlimit : limit ≠ 0) :
    (Command.makeTemplate bioType limit matcher).Making s TryCounter.descriptor
      ((Session.step (.makeTemplate bioType limit matcher) s).result,
        (Session.step (.makeTemplate bioType limit matcher) s).state.card) := by
  have hexec : ((Session.step (.makeTemplate bioType limit matcher) s).result,
      (Session.step (.makeTemplate bioType limit matcher) s).state.card) =
        (((makeTemplate bioType limit matcher).exec s).1,
          ((makeTemplate bioType limit matcher).exec s).2.card) := rfl
  rw [hexec, exec_make, exec_make_allocate hlimit]
  have hallocation := h.memory.store.allocation (d := TryCounter.descriptor) (by decide)
  unfold Memory.allocated
  rcases hs : s.card.memory.store.allocate TryCounter.descriptor with e | ⟨array, s'⟩
  · rw [hs] at hallocation
    cases hallocation with
    | exhausted hexhausted => exact .exhausted hexhausted
    | full hleft hfull => exact .full hleft hfull
  · rw [hs] at hallocation
    cases hallocation with
    | made hadmits hsound' hadds =>
      dsimp only
      let w : Write := ⟨.unconditional, array, 0, [limit, limit]⟩
      have hsound₁ := Operation.sound_allocate h.memory hs
      have hsettled₁ : Memory.Settled { s.card.memory with store := s' } := h.settled
      have hd : s'.descriptor? array = some TryCounter.descriptor := by
        rw [hadds.descriptor, if_pos rfl]
      have hkept := Write.descriptor?_act hsound₁ hsettled₁ w
      have hsound₂ := (Write.sound_act (w := w) hsound₁ hsettled₁).store
      have hadds' := hadds.congr hkept hsound' hsound₂
      have hlanded : Write.Landed array 0 [limit, limit] _
          ((Memory.writeUnconditional array 0 [limit, limit]).exec _) :=
        Write.landed hsound₁ hsettled₁ hd (Nat.le_refl 2)
      change Store.Adds _ _ _
        ((Memory.writeUnconditional array 0 [limit, limit]).exec _).2.store at hadds'
      generalize (Memory.writeUnconditional array 0 [limit, limit]).exec _ = r at hlanded hadds'
      cases hlanded with
      | whole => exact .made hadmits (.inl rfl) hadds'
      | torn _ _ hloss => exact .made hadmits (.inr ⟨_, rfl, hloss⟩) hadds'

/-- How an acceptable command ends that makes an array. -/
theorem Sound.making (h : s.Sound) (hmakes : command.Makes s.card.config d) :
    command.Making s d ((Session.step command s).result, (Session.step command s).state.card) := by
  have hlength := hmakes.length_le
  cases hmakes with
  | @persistent kind length n hn =>
    have hn := Memory.arrayLength_of_index? hn .store
    refine h.making_of_exec hlength (x := Memory.makePersistent kind length) ?_ rfl fun _ => rfl
    exact (Act.exec_query_bind_of_ok (fun _ => Memory.arrayLength .store length) hn).trans
      (Memory.exec_allocate _ _)
  | @transient kind length event lifetime n hlifetime hkind hn =>
    have hn := Memory.arrayLength_of_index? hn .store
    refine h.making_of_exec hlength (x := Memory.makeTransient kind length event) ?_ rfl
      fun _ => rfl
    unfold Memory.makeTransient
    rw [hlifetime]
    dsimp only
    rw [if_pos hkind]
    exact (Act.exec_query_bind_of_ok (fun _ => Memory.arrayLength .store length) hn).trans
      (Memory.exec_allocate _ _)
  | @sensitive kind memoryType length lifetime n hsupported hkind hlifetime hn =>
    have hn := Memory.arrayLength_of_index? hn .sensitive
    have hd : Integrity.descriptorFor s.card.config.integritySensitiveSupported kind memoryType
        length = .ok ⟨kind, n, lifetime, true⟩ := by
      unfold Integrity.descriptorFor
      rw [hsupported, hkind, hlifetime]
      simp only [Bool.not_true, Bool.false_eq_true, if_false, hn]
      rfl
    refine h.making_of_exec hlength
      (x := Integrity.make s.card.config.integritySensitiveSupported kind memoryType length) ?_ rfl
      fun _ => rfl
    unfold Integrity.make
    rw [Act.exec_query_bind_of_ok
      (fun _ : Memory => Integrity.descriptorFor _ kind memoryType length) hd, Act.exec_bind,
      Memory.exec_allocate]
    rcases s.card.memory.allocated _ with ⟨_ | _, _⟩
    · rfl
    · rfl
  | counter hlimit => exact h.making_template hlimit

/-- Where there is room for an array, it is made. -/
theorem Sound.made_of_admits (h : s.Sound) (hmakes : command.Makes s.card.config d)
    (hadmits : s.card.memory.store.Admits s.card.config d) :
    ∃ array, command.Answers s array (Session.step command s).result ∧
      Store.Adds d s.card.memory.store array
        (Session.step command s).state.card.memory.store := by
  have hmaking := h.making hmakes
  generalize (Session.step command s).result = r at hmaking ⊢
  generalize (Session.step command s).state.card = card at hmaking ⊢
  cases hmaking with
  | made _ hanswers hadds => exact ⟨_, hanswers, hadds⟩
  | exhausted hexhausted => exact absurd hexhausted hadmits.reference
  | full _ hfull => exact absurd hadmits hfull

/-- Where there is none, nothing happens. -/
theorem Sound.refused_of_not_admits (h : s.Sound) (hmakes : command.Makes s.card.config d)
    (hfull : ¬s.card.memory.store.Admits s.card.config d) :
    (∃ e, (Session.step command s).result = .error e) ∧
      (Session.step command s).state.card = s.card := by
  have hmaking := h.making hmakes
  generalize (Session.step command s).result = r at hmaking ⊢
  generalize (Session.step command s).state.card = card at hmaking ⊢
  cases hmaking with
  | made hadmits => exact absurd hadmits hfull
  | exhausted => exact ⟨⟨_, rfl⟩, rfl⟩
  | full => exact ⟨⟨_, rfl⟩, rfl⟩

/-- Where no reference is left, this is the reason that is given. -/
theorem Sound.refused_of_exhausted (h : s.Sound) (hmakes : command.Makes s.card.config d)
    (hexhausted : s.card.memory.store.Exhausted) :
    (Session.step command s).result = .error .referencesExhausted ∧
      (Session.step command s).state.card = s.card := by
  have hmaking := h.making hmakes
  generalize (Session.step command s).result = r at hmaking ⊢
  generalize (Session.step command s).state.card = card at hmaking ⊢
  cases hmaking with
  | made hadmits => exact absurd hexhausted hadmits.reference
  | exhausted => exact ⟨rfl, rfl⟩
  | full hleft => exact absurd hexhausted hleft

/-! ## Other commands -/

/-- A length that is negative, and any other argument that does not do, is refused at once. -/
theorem refused_request (hallocates : command.allocates = true)
    (hnone : ∀ d, ¬command.Makes s.card.config d) : ∃ e, command.request s = .error e := by
  have hlength : ∀ (origin : Origin) (length : Int16), index? length = none →
      Memory.arrayLength origin length = .error (.negativeLength origin length) := by
    intro origin length hn
    unfold Memory.arrayLength
    rw [hn]
  cases command
  case makePersistent kind length =>
    rcases hn : index? length with _ | n
    · exact ⟨_, congrArg (· >>= _) (hlength .store length hn)⟩
    · exact absurd (.persistent hn) (hnone _)
  case makeTransient kind length event =>
    unfold Command.request
    dsimp only
    rcases hlifetime : Lifetime.ofEvent? event with _ | lifetime
    · exact ⟨_, rfl⟩
    · dsimp only
      split
      next hkind =>
        rcases hn : index? length with _ | n
        · exact ⟨_, congrArg (· >>= _) (hlength .store length hn)⟩
        · exact absurd (.transient hlifetime hkind hn) (hnone _)
      next => exact ⟨_, rfl⟩
  case makeSensitive kind memoryType length =>
    unfold Command.request Integrity.descriptorFor
    dsimp only
    rcases hsupported : s.card.config.integritySensitiveSupported with _ | _
    · exact ⟨_, rfl⟩
    rcases hkind : kind.isPrimitive with _ | _
    · exact ⟨_, rfl⟩
    rcases hlifetime : Lifetime.ofMemoryType? memoryType with _ | lifetime
    · exact ⟨_, rfl⟩
    rcases hn : index? length with _ | n
    · rw [hlength .sensitive length hn]
      exact ⟨_, rfl⟩
    · exact absurd (.sensitive hsupported hkind hlifetime hn) (hnone _)
  case makeTemplate bioType limit matcher =>
    by_cases hlimit : limit = 0
    · refine ⟨.zeroTryLimit, ?_⟩
      rw [hlimit]
      rfl
    · exact absurd (.counter hlimit) (hnone _)
  all_goals cases hallocates

/-- A command that is not acceptable changes nothing. -/
theorem Sound.refused_of_not_makes (h : s.Sound) (hallocates : command.allocates = true)
    (hnone : ∀ d, ¬command.Makes s.card.config d) :
    (∃ e, (Session.step command s).result = .error e) ∧
      (Session.step command s).state.card = s.card := by
  obtain ⟨e, he⟩ := refused_request hallocates hnone
  have hrestore : command.isRestore = false := by
    cases command <;> first | rfl | cases hallocates
  have hresult := h.result_step hrestore
  rw [he, Operation.carry_error] at hresult
  refine ⟨?_, ?_⟩
  · rcases hr : (Session.step command s).result with e' | reply
    · exact ⟨e', rfl⟩
    · rw [hr] at hresult
      cases hresult
  · rw [h.card_step hrestore, he, Operation.carry_error]

open AsksFor in
/-- Other commands ask for no array. -/
theorem request_of_not_allocates (hallocates : command.allocates = false) :
    AsksFor Command.MakeNone (command.request s) := by
  have hnil : Command.MakeNone [] := fun _ hop => nomatch hop
  have hone : ∀ {op : Operation}, (∀ d, op ≠ .allocate d) →
      AsksFor Command.MakeNone (.ok [op]) := by
    intro op hop
    refine made fun op' hmem => ?_
    rw [List.mem_singleton.mp hmem]
    exact hop
  have hwrite : ∀ w : Write, Command.MakeNone [.write w] := by
    intro w op hmem
    rw [List.mem_singleton.mp hmem]
    exact nofun
  have hquery := query hnil ((Session.perform command).exec s).1
  cases command
  case begin => exact hone nofun
  case commit => exact hone nofun
  case abort => exact hone nofun
  case reset => exact hone nofun
  case deselect => exact hone nofun
  case injectPowerLoss => exact hone nofun
  case injectBitFlip => exact hone nofun
  case setElement => exact checked fun _ _ => made (hwrite _)
  case loadElements => exact either (refused _) (checked fun _ _ => writeUnless hnil (hwrite _))
  case copy => exact checked fun _ _ => checked fun _ _ => writeUnless hnil (hwrite _)
  case fill => exact checked fun _ _ => checked fun _ _ => writeUnless hnil (hwrite _)
  case setShort => exact checked fun _ _ => made (hwrite _)
  case setInt => exact checked fun _ _ => made (hwrite _)
  case clearArray => exact checked fun _ _ => writeUnless hnil (hwrite _)
  case templateInitMatch =>
    exact .onTemplate fun _ _ => checked fun _ _ => checked fun _ _ =>
      either (made hnil) (.settling hnil (fun w _ => hwrite w) _ _)
  case templateMatch =>
    exact .onTemplate fun _ _ => either (.settling hnil (fun w _ => hwrite w) _ _) (refused _)
  case templateResetTryLimit => exact .onTemplate fun _ _ => checked fun _ _ => made (hwrite _)
  case makePersistent => cases hallocates
  case makeTransient => cases hallocates
  case makeSensitive => cases hallocates
  case makeTemplate => cases hallocates
  all_goals exact hquery

/-- Other commands leave the arrays on the card as they were made. -/
theorem Sound.descriptor?_step_of_not_allocates (h : s.Sound) (hrestore : command.isRestore = false)
    (hallocates : command.allocates = false) :
    (Session.step command s).state.card.memory.store.descriptor? =
      s.card.memory.store.descriptor? := by
  rw [h.card_step hrestore]
  rcases hr : command.request s with e | ops
  · rfl
  · have hops := request_of_not_allocates hallocates ops hr
    obtain ⟨⟨_, _, hend⟩, _⟩ := Operation.kept_run
      (P := fun m => m.store.descriptor? = s.card.memory.store.descriptor?)
      (fun op hop _ hsound hsettled hd =>
        (Operation.descriptor?_act hsound hsettled (hops op hop)).trans hd)
      h.memory h.settled rfl
    exact hend

/-- And so they leave the pools and the next reference alone. -/
theorem Sound.accounts_step_of_not_allocates (h : s.Sound) (hrestore : command.isRestore = false)
    (hallocates : command.allocates = false) :
    (∀ l, (Session.step command s).state.card.memory.store.pools.of l =
        s.card.memory.store.pools.of l) ∧
      (Session.step command s).state.card.memory.store.next = s.card.memory.store.next := by
  have hd := h.descriptor?_step_of_not_allocates hrestore hallocates
  have hsound' := (h.step command).memory.store
  rw [h.card_step hrestore] at hsound' hd ⊢
  exact ⟨h.memory.store.pools_eq_of_descriptor? hsound' hd,
    h.memory.store.next_eq_of_descriptor? hsound' hd⟩

end Session

end SmartCard
