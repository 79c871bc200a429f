-- SUMMARY: Indices stay in bounds: no command overflows, leaves a payload, or reports an index once it has written.
import SmartCard.Proofs.Session.OneCard
import SmartCard.Proofs.Session.Primitives
import SmartCard.Proofs.Session.Transients

/-!
# Indices in bounds

What a command does behind its checks stays in bounds, and so does whatever it writes; hence no
fault is reported that only code behind the checks can report, and a range operation that finds an
index out of bounds has not written yet (`Session.stays_in_bounds`). For the counters of templates
this takes the card on which the template was made (`Session.AtHome`).
-/

namespace SmartCard

variable {μ : Type} {c : Config} {s : Store} {array : ArrayRef}

namespace Session

variable [Matcher μ] {s : Session μ} {command : Command μ}

/-! ## Templates at home -/

/-- Sessions that have stayed on the card on which the template at a position was made. -/
inductive AtHome (position : Nat) : Session μ → Prop where
  | made {s : Session μ} {bioType limit : UInt8} {matcher : μ} {array : ArrayRef} :
      Reachable s →
      (Session.step (.makeTemplate bioType limit matcher) s).result =
        .ok (.template position array) →
      AtHome position (Session.step (.makeTemplate bioType limit matcher) s).state
  | step {s : Session μ} (c : Command μ) :
      AtHome position s → ¬c.Replaces s → AtHome position (Session.step c s).state

/-- On its card a template has its counter. -/
structure Housing (position : Nat) (s : Session μ) : Prop where
  sound : s.Sound
  counter : ∀ {array}, s.counters[position]? = some array →
    s.card.memory.store.descriptor? array = some TryCounter.descriptor

theorem Housing.step {position : Nat} (h : s.Housing position) (hplace : ¬command.Replaces s) :
    (Session.step command s).state.Housing position := by
  refine ⟨h.sound.step command, fun {array} hat => ?_⟩
  have hkept : s.counters[position]? = some array →
      (Session.step command s).state.card.memory.store.descriptor? array =
        some TryCounter.descriptor := fun hbefore =>
    h.sound.keeps_step_of_place hplace array _ (h.counter hbefore)
  rcases h.sound.counters_cases command with hsame | ⟨new, _, hnew, hd⟩
  · rw [hsame] at hat
    exact hkept hat
  · rw [hnew] at hat
    by_cases hold : position < s.counters.length
    · rw [List.getElem?_append_left hold] at hat
      exact hkept hat
    · rw [List.getElem?_append_right (Nat.not_lt.mp hold)] at hat
      rw [List.mem_singleton.mp (List.mem_of_getElem? hat)]
      exact hd

theorem AtHome.housing {position : Nat} (h : AtHome position s) : s.Housing position := by
  induction h with
  | made hreachable hmake =>
    refine ⟨hreachable.sound.step _, fun hat => ?_⟩
    obtain ⟨t, ht, hhosts⟩ := hreachable.sound.hosts_make hmake
    rw [← counter_eq hat ht]
    exact hhosts
  | step c _ hplace ih => exact ih.step hplace

theorem AtHome.hosts {position : Nat} (h : AtHome position s) {t : Template μ}
    (ht : s.templates[position]? = some t) : s.Hosts t := by
  refine h.housing.counter ?_
  rw [getElem?_counters, ht]
  rfl

/-! ## Operations of commands -/

/-- Whatever is not a write fails with the fault of a check. -/
theorem checks_act {m : Memory} (h : m.Sound c) {op : Operation} (hop : ∀ w, op ≠ .write w) :
    Checks (op.act.exec m).1 := by
  cases op with
  | write w => exact absurd rfl (hop w)
  | begin =>
    rw [Operation.act, Memory.exec_begin]
    split
    · exact checks_ok ()
    · exact checks_error rfl rfl rfl
  | commit =>
    rw [Operation.act, Memory.exec_commit]
    split
    · exact checks_error rfl rfl rfl
    · exact checks_ok ()
  | abort =>
    rw [Operation.act, h.exec_abort]
    split
    · exact checks_error rfl rfl rfl
    · exact checks_ok ()
  | allocate d =>
    rw [Operation.exec_allocate]
    rcases hd : m.store.allocate d with e | ⟨_, _⟩
    · exact FailsOnly.error (checks_allocate _ _ e hd)
    · exact checks_ok ()
  | reset =>
    rw [Operation.exec_reset h]
    exact checks_ok ()
  | deselect =>
    rw [Operation.exec_deselect]
    exact checks_ok ()
  | arm bytes => exact checks_ok ()
  | flip array byte mask =>
    rw [Operation.exec_flip]
    rcases hf : m.store.flipBits array byte mask with e | _
    · exact FailsOnly.error (checks_flipBits _ _ _ _ e hf)
    · exact checks_ok ()

section Operations

variable (h : s.Sound) (hcounter : ∀ {position t}, command.position? = some position →
  s.templates[position]? = some t → s.Hosts t)

include h

/-- A command that fails is refused, or one of its operations fails. -/
theorem Sound.error_cases (hrestore : command.isRestore = false) {e : Fault}
    (he : (Session.step command s).result = .error e) :
    command.request s = .error e ∨
      ∃ m op, (m, op) ∈ commandTrace s command ∧ (op.act.exec m).1 = .error e := by
  have hresult := h.result_step hrestore
  rw [he] at hresult
  rcases hr : command.request s with e' | ops
  · rw [hr] at hresult
    cases hresult
    exact .inl rfl
  · rw [hr, Operation.carry_ok] at hresult
    have hfails : failsBy (· == e) (Operation.run s.card.memory ops).1 = true := by
      rw [← hresult]
      exact beq_self_eq_true e
    obtain ⟨⟨m, op⟩, hmem, hop⟩ := (Operation.failsBy_run_iff _ _ _).mp hfails
    refine .inr ⟨m, op, ?_, ?_⟩
    · rw [commandTrace, hr]
      exact hmem
    · rcases hexec : (op.act.exec m).1 with e' | _
      · rw [hexec] at hop
        exact congrArg Except.error (eq_of_beq hop)
      · rw [hexec] at hop
        cases hop

include hcounter

/-- What a command writes lies within its array. -/
theorem Sound.inRange_of_mem {m : Memory} {w : Write}
    (hmem : (m, .write w) ∈ commandTrace s command) : w.InRange m.store := by
  obtain ⟨ops, _, hasked, htrace⟩ := h.asked_of_mem hmem
  have hop := mem_trace htrace
  cases hasked with
  | nothing => cases hop
  | other hother => exact absurd (List.mem_singleton.mp hop).symm (hother w)
  | write _ hrange =>
    rw [Operation.trace_singleton] at htrace
    obtain ⟨rfl, hw⟩ := Prod.mk.inj (List.mem_singleton.mp htrace)
    cases hw
    exact hrange
  | counter hposition ht _ hfits =>
    rw [Operation.trace_singleton] at htrace
    obtain ⟨rfl, hw⟩ := Prod.mk.inj (List.mem_singleton.mp htrace)
    cases hw
    exact ⟨_, hcounter hposition ht, hfits⟩
  | enrolment hfree =>
    rw [Operation.trace, Operation.exec_allocate] at htrace
    rcases List.mem_cons.mp htrace with hfirst | hmore
    · cases hfirst
    · rcases hd : s.card.memory.store.allocate TryCounter.descriptor with _ | ⟨array, store⟩
      · rw [hd] at hmore
        cases hmore
      · rw [hd] at hmore
        dsimp only at hmore
        rw [Operation.trace_singleton] at hmore
        obtain ⟨rfl, hw⟩ := Prod.mk.inj (List.mem_singleton.mp hmore)
        cases hw
        exact Operation.inRange_of_allocate h.memory hd hfree (Nat.le_refl 2)

/-- A write fails for want of power or room only. -/
theorem Sound.write_error {m : Memory} {w : Write} {e : Fault}
    (hmem : (m, .write w) ∈ commandTrace s command) (he : (w.act.exec m).1 = .error e) :
    e.isPowerLoss = true ∨ e.isBufferFull = true := by
  obtain ⟨hsound, hsettled, _⟩ := h.keeps_of_mem hmem
  rcases Write.hindered_of_error (h.inRange_of_mem hcounter hmem) hsound hsettled he with
    ⟨_, _, _, hloss⟩ | ⟨_, _, hfull⟩
  · exact .inl hloss
  · exact .inr hfull

/-- No command fails behind its checks, but for want of power or room. -/
theorem Sound.timely (hrestore : command.isRestore = false) {e : Fault}
    (he : (Session.step command s).result = .error e) : e.isLate = false := by
  rcases h.error_cases hrestore he with hr | ⟨m, op, hmem, hop⟩
  · have hissued : ∀ x, command.Issues s x → x.Fails (·.isLate = false) s.card.memory.store :=
      fun x hx => (inBounds_of_issues h.memory.store hcounter hx).fails h.memory.store _
    exact command.fails_request (fun _ hcheck => hcheck.timely) hrestore hissued e hr
  · by_cases hwrite : ∃ w, op = .write w
    · obtain ⟨w, rfl⟩ := hwrite
      rcases h.write_error hcounter hmem hop with hloss | hfull
      · cases e with
        | bytesOutside | indexTooLarge => cases hloss
        | _ => rfl
      · cases e with
        | bytesOutside | indexTooLarge => cases hfull
        | _ => rfl
    · obtain ⟨hsound, _⟩ := h.keeps_of_mem hmem
      exact (checks_act hsound (fun w hw => hwrite ⟨w, hw⟩) e hop).timely

end Operations

end Session

/-! ## Range operations and advancing offsets -/

namespace Command

def isRangeOperation : Command μ → Bool
  | .copy .. | .fill .. | .compare .. | .find .. => true
  | _ => false

/-- The array to which the index belongs that a command returns, behind the last element written. -/
def advances? : Command μ → Option ArrayRef
  | .copy _ _ _ _ array _
  | .fill _ array _ _ _ _
  | .setShort array _ _
  | .setInt array _ _ => some array
  | _ => none

open AsksFor in
/-- Range operations ask for nothing but writes. -/
theorem writes_of_range [Matcher μ] {s : Session μ} {command : Command μ}
    (hrange : command.isRangeOperation = true) :
    AsksFor (fun ops => ∀ op ∈ ops, ∃ w, op = .write w) (command.request s) := by
  have hnil : ∀ op ∈ ([] : List Operation), ∃ w, op = .write w := fun _ hop => nomatch hop
  have hone : ∀ w : Write, ∀ op ∈ [Operation.write w], ∃ w, op = .write w := fun w op hop =>
    ⟨w, List.mem_singleton.mp hop⟩
  cases command
  case copy => exact checked fun _ _ => checked fun _ _ => writeUnless hnil (hone _)
  case fill => exact checked fun _ _ => checked fun _ _ => writeUnless hnil (hone _)
  case compare => exact query hnil _
  case find => exact query hnil _
  all_goals cases hrange

end Command

/-- The index that a transfer returns lies in its destination, or at its end. -/
theorem Range.Transfer.last_le {t : Transfer} {p : Protection} {o : Output} (h : s.Sound c)
    (ho : t.output s p = .ok o) :
    ∃ d, s.descriptor? t.destination = some d ∧ o.last ≤ d.length := by
  cases t with
  | copy =>
    obtain ⟨plan, hplan, ho⟩ := bind_eq_ok_iff.mp ho
    obtain ⟨bytes, _, ho⟩ := bind_eq_ok_iff.mp ho
    cases ho
    obtain ⟨x, y, start, count, target, _, hy, _, _, _, _, _, hrange, _, hplan⟩ :=
      Copy.plan_eq_ok hplan
    obtain ⟨d, hd, _, rfl⟩ := operand_eq_ok_iff.mp hy
    rw [hplan]
    exact ⟨d, h.descriptor_iff.mp hd, hrange⟩
  | fill =>
    obtain ⟨plan, hplan, ho⟩ := bind_eq_ok_iff.mp ho
    obtain ⟨element, _, ho⟩ := bind_eq_ok_iff.mp ho
    cases ho
    obtain ⟨x, y, hx, _, _, _, _, _, hrange, _⟩ := Fill.plan_eq_ok hplan
    obtain ⟨d, hd, _, rfl⟩ := operand_eq_ok_iff.mp hx
    exact ⟨d, h.descriptor_iff.mp hd, hrange⟩

/-- A packed value that has been written lay in a window, and its end is returned. -/
theorem Packing.window_of_writeWord {m : Memory} {offset next : Int16} {word : UInt32} {width : Nat}
    (h : ((writeWord array offset word width).exec m).1 = .ok next) :
    ∃ start, window m.store array offset width = .ok start ∧ next = offset + Int16.ofNat width := by
  rw [writeWord, Act.exec_bind, Act.exec_query] at h
  rcases hstart : window m.store array offset width with e | start
  · rw [hstart] at h
    cases h
  · rw [hstart] at h
    dsimp only at h
    rw [Act.exec_bind] at h
    generalize (Memory.writeParticipating array start (BigEndian.split word width)).exec m = r at h
    rcases r with ⟨_ | _, m'⟩
    · cases h
    · cases h
      exact ⟨start, rfl, rfl⟩

namespace Session

variable [Matcher μ] {s : Session μ} {command : Command μ}

/-- What a command returns that advances over an array: an index of the array, or its length. -/
def Advances (s : Session μ) (array : ArrayRef) (reply : Reply) : Prop :=
  ∃ next d, reply = .short next ∧ s.card.descriptor array = .ok d ∧
    0 ≤ next.toInt ∧ next.toInt ≤ d.length

theorem Sound.advances_transfer (h : s.Sound) {p : Range.Protection} {t : Range.Transfer}
    {reply : Reply} (hok : (Session.step (t.command p) s).result = .ok reply) :
    s.Advances t.destination reply := by
  obtain ⟨o, d, ho, hfits, rfl, _⟩ := transfer_done h hok
  obtain ⟨d, hd, hlast⟩ := Range.Transfer.last_le h.memory.store ho
  refine ⟨_, d, rfl, (Card.descriptor_eq_ok_iff h.memory.store).mpr hd, ?_⟩
  rw [hfits.toInt_last]
  omega

section Setters

variable {array : ArrayRef} {offset : Int16} {word : UInt32} {width : Nat} {reply : Reply}
  (hperform : perform command =
    .short <$> onCard (Card.onMemory (Packing.writeWord array offset word width)))
  (hok : (Session.step command s).result = .ok reply)

include hperform hok

theorem window_of_setter :
    ∃ start, Packing.window s.card.memory.store array offset width = .ok start ∧
      reply = .short (offset + Int16.ofNat width) := by
  obtain ⟨hresult, _⟩ := step_onMemory command hperform s
  rw [hok] at hresult
  rcases hnext : ((Packing.writeWord array offset word width).exec s.card.memory).1 with e | next
  · rw [hnext] at hresult
    cases hresult
  · rw [hnext] at hresult
    cases hresult
    obtain ⟨start, hstart, rfl⟩ := Packing.window_of_writeWord hnext
    exact ⟨start, hstart, rfl⟩

theorem Sound.advances_writeWord (h : s.Sound) : s.Advances array reply := by
  obtain ⟨start, hstart, rfl⟩ := window_of_setter hperform hok
  obtain ⟨d, hd, _, hoffset, hrange⟩ := Packing.window_eq_ok_iff.mp hstart
  have hfirst := Range.index?_eq_some_iff.mp hoffset
  have hend : (offset + Int16.ofNat width).toInt = offset.toInt + width :=
    Packing.advance_inBounds h.memory.store hstart
  have hd' := h.memory.store.descriptor_iff.mp hd
  refine ⟨_, d, rfl, (Card.descriptor_eq_ok_iff h.memory.store).mpr hd', ?_⟩
  omega

end Setters

theorem Sound.issues_transfer (h : s.Sound) {p : Range.Protection} {t : Range.Transfer}
    {reply : Reply} (hok : (Session.step (t.command p) s).result = .ok reply) :
    ∃ index, (t.command p).Issues s (.short index) ∧ reply = .short (Int16.ofNat index) := by
  obtain ⟨o, d, ho, hfits, rfl, _⟩ := transfer_done h hok
  obtain ⟨o', d', ho', hfits', hfree⟩ := (transfer_isOk_iff h).mp ⟨_, hok⟩
  obtain rfl : o' = o := Except.ok.inj (ho'.symm.trans ho)
  have hguarded : ¬(p = .nonAtomic ∧ d'.requiresAtomicWrites = true) := by
    rintro ⟨hp, hatomic⟩
    rw [hfree.guarded hp] at hatomic
    cases hatomic
  have houtput := Range.Transfer.output_of_ok (p := p) h.memory.store ho' hfits'
  rw [if_neg hguarded] at houtput
  cases t with
  | copy =>
    obtain ⟨plan, hplan, houtput⟩ := bind_eq_ok_iff.mp houtput
    obtain ⟨bytes, _, houtput⟩ := bind_eq_ok_iff.mp houtput
    cases houtput
    exact ⟨_, .copyEnd hplan, rfl⟩
  | fill =>
    obtain ⟨plan, hplan, houtput⟩ := bind_eq_ok_iff.mp houtput
    obtain ⟨element, _, houtput⟩ := bind_eq_ok_iff.mp houtput
    cases houtput
    exact ⟨_, .fillEnd hplan, rfl⟩

/-- The index that a command returns behind what it has written comes out of a primitive that it
issues. -/
theorem Sound.issues_index (h : s.Sound) {array : ArrayRef}
    (harray : command.advances? = some array) {reply : Reply}
    (hok : (Session.step command s).result = .ok reply) :
    ∃ x next, command.Issues s x ∧ x.next? = some next ∧ reply = .short next := by
  cases command
  case copy p _ _ _ _ _ =>
    obtain ⟨_, hissued, hreply⟩ := h.issues_transfer (p := p) (t := .copy _ _ _ _ _) hok
    exact ⟨_, _, hissued, rfl, hreply⟩
  case fill p _ _ _ _ _ =>
    obtain ⟨_, hissued, hreply⟩ := h.issues_transfer (p := p) (t := .fill _ _ _ _ _) hok
    exact ⟨_, _, hissued, rfl, hreply⟩
  case setShort =>
    obtain ⟨_, hstart, hreply⟩ := window_of_setter rfl hok
    exact ⟨_, _, .shortEnd hstart, rfl, hreply⟩
  case setInt =>
    obtain ⟨_, hstart, hreply⟩ := window_of_setter rfl hok
    exact ⟨_, _, .intEnd hstart, rfl, hreply⟩
  all_goals cases harray

theorem Sound.advances (h : s.Sound) {array : ArrayRef} (harray : command.advances? = some array)
    {reply : Reply} (hok : (Session.step command s).result = .ok reply) :
    s.Advances array reply := by
  cases command
  case copy p _ _ _ _ _ =>
    cases harray
    exact h.advances_transfer (p := p) (t := .copy _ _ _ _ _) hok
  case fill p _ _ _ _ _ =>
    cases harray
    exact h.advances_transfer (p := p) (t := .fill _ _ _ _ _) hok
  case setShort =>
    cases harray
    exact h.advances_writeWord rfl hok
  case setInt =>
    cases harray
    exact h.advances_writeWord rfl hok
  all_goals cases harray

/-! ## The law -/

/-- Indices stay in bounds when a command is carried out. -/
structure InBounds (s : Session μ) (command : Command μ) : Prop where
  /-- Behind the checks no index is too large and no sum overflows, no word is asked for more bytes
  than it has, and what is read lies within its payload. -/
  issued : ∀ {x}, command.Issues s x → x.InBounds s.card.memory.store
  /-- What is written lies within its payload, and with it the bytes that are logged before. -/
  written : ∀ {m w}, (m, .write w) ∈ commandTrace s command →
    m.store.Covers w.array w.offset w.bytes.length
  /-- So nothing is reported that only code behind the checks reports. -/
  timely : ∀ {e}, command.isRestore = false → (Session.step command s).result = .error e →
    e.isLate = false
  /-- A range operation that reports an index out of bounds has asked nothing of the memory. -/
  untouched : ∀ {e}, command.isRangeOperation = true →
    (Session.step command s).result = .error e → e.errorClass = .arrayIndexOutOfBounds →
    command.request s = .error e ∧ (Session.step command s).state.card = s.card
  /-- An index that is returned behind the last element written is one of the array, or its length.
  -/
  advanced : ∀ {array reply}, command.advances? = some array →
    (Session.step command s).result = .ok reply → s.Advances array reply

/-- Range operations find indices out of bounds before they write. -/
theorem Sound.untouched (h : s.Sound)
    (hcounter : ∀ {position t}, command.position? = some position →
      s.templates[position]? = some t → s.Hosts t)
    (hrange : command.isRangeOperation = true) {e : Fault}
    (he : (Session.step command s).result = .error e)
    (hclass : e.errorClass = .arrayIndexOutOfBounds) :
    command.request s = .error e ∧ (Session.step command s).state.card = s.card := by
  have hrestore : command.isRestore = false := by
    cases command <;> first | rfl | cases hrange
  rcases h.error_cases hrestore he with hr | ⟨m, op, hmem, hop⟩
  · refine ⟨hr, ?_⟩
    rw [h.card_step hrestore, hr]
    rfl
  · obtain ⟨ops, hr, _, htrace⟩ := h.asked_of_mem hmem
    obtain ⟨w, rfl⟩ := Command.writes_of_range hrange ops hr op (mem_trace htrace)
    rcases h.write_error hcounter hmem hop with hloss | hfull
    · rw [Fault.isPowerLoss, hclass] at hloss
      cases hloss
    · cases e with
      | commitBufferFull => cases hclass
      | _ => cases hfull

/-- Index arithmetic never overflows and late checks never fire, whatever is asked of a card that
can be reached: computations behind the checks stay in bounds, everything that is read or written
lies within its payload, no range operation reports an index out of bounds once it has written, and
the indices that are returned belong to the array. A command for a template is given on the card on
which the template was made. -/
theorem stays_in_bounds (hreachable : s.Reachable) (command : Command μ)
    (hhome : ∀ {position t}, command.position? = some position →
      s.templates[position]? = some t → AtHome position s) : s.InBounds command := by
  have h := hreachable.sound
  have hcounter : ∀ {position t}, command.position? = some position →
      s.templates[position]? = some t → s.Hosts t := fun hposition ht =>
    (hhome hposition ht).hosts ht
  exact
    { issued := inBounds_of_issues h.memory.store hcounter
      written := fun hmem =>
        (h.inRange_of_mem hcounter hmem).covers (h.keeps_of_mem hmem).1.store
      timely := fun hrestore he => h.timely hcounter hrestore he
      untouched := fun hrange he hclass => h.untouched hcounter hrange he hclass
      advanced := fun harray hok => h.advances harray hok }

/-- A template is asked for the tries that are left. Then four bytes are joined into the last two
of three shorts: the bytes that the copy writes lie within the array, and it returns the length. So
does a setter that fills an array of four bytes. A copy behind the end of the array is refused, and
leaves the card as it is. -/
theorem stays_in_bounds_atWork :
    ((step (.templateTries 0) enrolled).result = .ok (.code 1) ∧
      enrolled.InBounds (.templateTries 0)) ∧
    ((step (.copy .atomic ⟨1⟩ 0 4 ⟨2⟩ 1) bytesAndShorts).result = .ok (.short 3) ∧
      bytesAndShorts.card.memory.store.Covers ⟨2⟩ 2 4 ∧
      bytesAndShorts.Advances ⟨2⟩ (.short 3)) ∧
    ((step (.setInt ⟨1⟩ 0 (-2)) bytesAndShorts).result = .ok (.short 4) ∧
      (Primitive.advance 0 4).InBounds bytesAndShorts.card.memory.store ∧
      bytesAndShorts.Advances ⟨1⟩ (.short 4)) ∧
    (step (.copy .atomic ⟨1⟩ 0 4 ⟨2⟩ 2) bytesAndShorts).result =
        .error (.rangeOutside .destination 2 2 ⟨2⟩ 3) ∧
      (step (.copy .atomic ⟨1⟩ 0 4 ⟨2⟩ 2) bytesAndShorts).state.card = bytesAndShorts.card := by
  have hmake : (step (.makeTemplate 3 1 ⟨0⟩) fresh).result = .ok (.template 0 ⟨1⟩) := by rfl
  have hreachable : bytesAndShorts.Reachable := reachable_fresh.run _
  have hcopy : (step (.copy .atomic ⟨1⟩ 0 4 ⟨2⟩ 1) bytesAndShorts).result = .ok (.short 3) := by rfl
  have htrace : commandTrace bytesAndShorts (.copy .atomic ⟨1⟩ 0 4 ⟨2⟩ 1) =
      [(bytesAndShorts.card.memory, .write ⟨.atomic, ⟨2⟩, 2, [18, 52, 255, 1]⟩)] := by rfl
  have hset : (step (.setInt ⟨1⟩ 0 (-2)) bytesAndShorts).result = .ok (.short 4) := by rfl
  have hwindow : Packing.window bytesAndShorts.card.memory.store ⟨1⟩ 0 4 = .ok 0 := by rfl
  have hrefused : (step (.copy .atomic ⟨1⟩ 0 4 ⟨2⟩ 2) bytesAndShorts).result =
      .error (.rangeOutside .destination 2 2 ⟨2⟩ 3) := by rfl
  have hcopies : bytesAndShorts.InBounds (.copy .atomic ⟨1⟩ 0 4 ⟨2⟩ 1) :=
    stays_in_bounds hreachable _ nofun
  have hsets : bytesAndShorts.InBounds (.setInt ⟨1⟩ 0 (-2)) := stays_in_bounds hreachable _ nofun
  have hrefuses : bytesAndShorts.InBounds (.copy .atomic ⟨1⟩ 0 4 ⟨2⟩ 2) :=
    stays_in_bounds hreachable _ nofun
  refine ⟨⟨by rfl, stays_in_bounds (reachable_fresh.step _) _ fun hposition _ => ?_⟩, ?_, ?_, ?_⟩
  · cases hposition
    exact .made reachable_fresh hmake
  · exact ⟨hcopy, hcopies.written (htrace ▸ List.mem_singleton_self _), hcopies.advanced rfl hcopy⟩
  · exact ⟨hset, hsets.issued (.intEnd hwindow), hsets.advanced rfl hset⟩
  · exact ⟨hrefused, (hrefuses.untouched rfl hrefused rfl).2⟩

end Session

end SmartCard
