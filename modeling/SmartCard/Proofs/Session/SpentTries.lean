-- SUMMARY: The bytes of a try counter are what the writes of its own template have put there, whatever else happens.
import Mathlib.Data.List.Basic
import SmartCard.Proofs.Memory.Landing
import SmartCard.Proofs.Session.Capacity
import SmartCard.Proofs.Session.OneCard

/-!
# Spent tries

The counter of a template is an array like any other, and transactions know nothing of it. That they
never give tries back rests on an invariant (`Session.Owned`): the counter has never come into the
undo log, and no other template shares it. Each command is one of three as far as the counter goes.
It is for the template, and writes to the counter on the unconditional lane, if at all; or it names
another array, or none; or it restores the card from its own image.
-/

namespace SmartCard

variable {μ : Type}

namespace Command

/-- Whether a command leaves a counter to the templates. It stays on the card, and if it is no
command for a template, it does not name the array of the counter. -/
def LeavesCounter (counter : ArrayRef) (s : Session μ) (command : Command μ) : Prop :=
  ¬command.Replaces s ∧ (command.position? = none → command.destination? s ≠ some counter)

/-- What a command for a template may ask: nothing, or one update of its counter. -/
inductive Updates (counter : ArrayRef) : List Operation → Prop where
  | nothing : Updates counter []
  | write {offset : Nat} {bytes : List UInt8} :
      offset + bytes.length ≤ TryCounter.descriptor.byteLength →
      Updates counter [.write ⟨.unconditional, counter, offset, bytes⟩]

open AsksFor

theorem updates_settling (m : Memory) (counter : ArrayRef) (score : Int16) :
    AsksFor (Updates counter) (settling m counter score) := by
  unfold settling
  split
  · exact refused _
  · exact made .nothing
  · exact checked fun _ _ => made (.write (Nat.le_refl 2))
  · exact checked fun _ _ => made (.write (Nat.le_refl 2))

variable {s : Session μ} {command : Command μ} {position : Nat} {counter : ArrayRef}

theorem updates_request [Matcher μ] (hposition : command.position? = some position)
    (hcounter : s.counters[position]? = some counter) :
    AsksFor (Updates counter) (command.request s) := by
  have hquery : AsksFor (Updates counter) (((Session.perform command).exec s).1.map fun _ => []) :=
    query .nothing _
  cases command
  case templateInitMatch other candidate =>
    cases hposition
    refine .onTemplate fun t ht => checked fun _ _ => checked fun _ _ => either (made .nothing) ?_
    rw [← Session.counter_eq hcounter ht]
    exact updates_settling _ _ _
  case templateMatch other candidate =>
    cases hposition
    refine .onTemplate fun t ht => either ?_ (refused _)
    rw [← Session.counter_eq hcounter ht]
    exact updates_settling _ _ _
  case templateResetTryLimit other limit =>
    cases hposition
    refine .onTemplate fun t ht => checked fun _ _ => made ?_
    rw [← Session.counter_eq hcounter ht]
    exact .write (Nat.le_refl 2)
  case templateInit => exact hquery
  case templateUpdate => exact hquery
  case templateFinish => exact hquery
  case templateReset => exact hquery
  case templateTries => exact hquery
  case templatePublicData => exact hquery
  all_goals cases hposition

/-- The destination of a command for a template is its counter. -/
theorem getElem?_counters_of_destination? (hposition : command.position? = some position)
    (hdestination : command.destination? s = some counter) :
    s.counters[position]? = some counter := by
  rw [Session.getElem?_counters]
  cases command <;> cases hposition
  case templateInitMatch => exact hdestination
  case templateMatch => exact hdestination
  case templateResetTryLimit => exact hdestination
  all_goals cases hdestination

/-- A command that leaves a counter to the templates, and is not for the one that has it, has
another destination. -/
theorem LeavesCounter.destination (h : command.LeavesCounter counter s)
    (hother : command.position? ≠ some position)
    (halone : ∀ other, s.counters[other]? = some counter → other = position) :
    command.destination? s ≠ some counter := by
  intro hdestination
  rcases hposition : command.position? with _ | other
  · exact h.2 hposition hdestination
  · have hsame := halone other (getElem?_counters_of_destination? hposition hdestination)
    rw [hposition, hsame] at hother
    exact hother rfl

theorem isRestore_of_position? (h : command.position? = some position) :
    command.isRestore = false := by
  cases command
  case restore => cases h
  all_goals rfl

theorem not_replaces (h : command.isRestore = false) : ¬command.Replaces s := by
  cases command
  case restore => cases h
  all_goals exact id

end Command

/-- What is in a list with one more element at the end is in the list, or is this element. -/
theorem eq_of_getElem?_concat {α : Type} {xs : List α} {x a : α} {i : Nat}
    (h : (xs ++ [x])[i]? = some a) : xs[i]? = some a ∨ i = xs.length ∧ x = a := by
  rcases Nat.lt_or_ge i xs.length with hlt | hge
  · rw [List.getElem?_append_left hlt] at h
    exact .inl h
  · rw [List.getElem?_append_right hge] at h
    obtain ⟨hindex, hx⟩ := List.getElem?_eq_some_iff.mp h
    rw [List.length_singleton] at hindex
    exact .inr ⟨by omega, by simpa using hx⟩

/-- A new counter has the limit and as many tries in its two bytes. -/
theorem TryCounter.Holds.shows {c : Config} {m : Memory} {array : ArrayRef} {limit left : UInt8}
    (h : Holds c array limit left m) : m.Shows array [limit, left] := by
  obtain ⟨cell, hfound, hd⟩ := Table.descriptor?_eq_some_iff.mp h.descriptor
  have hsize := (h.sound.store.cells hfound).size
  have hlimit := h.limit
  have hleft := h.left
  unfold Store.byte? at hlimit hleft
  rw [hfound, Option.bind_some] at hlimit hleft
  rw [hd] at hsize
  refine ⟨?_, h.unlogged⟩
  unfold Store.payload?
  rw [hfound, Option.map_some, Option.some.injEq]
  obtain ⟨a, b, hpayload⟩ := List.length_eq_two.mp hsize
  rw [hpayload] at hlimit hleft ⊢
  cases hlimit
  cases hleft
  rfl

namespace Session

variable [Matcher μ] {s s₀ : Session μ} {command : Command μ} {position : Nat}
  {counter : ArrayRef} {bytes : List UInt8}

/-! ## The bytes that a template has written -/

/-- The bytes of a counter after an operation, as far as it is an unconditional write to it. -/
def landedOn (counter : ArrayRef) (bytes : List UInt8) (step : Memory × Operation) : List UInt8 :=
  match step.2 with
  | .write w =>
    if w.lane = .unconditional ∧ w.array = counter then w.onto step.1 bytes else bytes
  | _ => bytes

/-- The bytes of a counter after a command, as far as the template at a position has put them there.
-/
def bytesAfter (position : Nat) (counter : ArrayRef) (s : Session μ) (command : Command μ)
    (bytes : List UInt8) : List UInt8 :=
  if command.position? = some position then (commandTrace s command).foldl (landedOn counter) bytes
  else bytes

/-- The bytes of a counter after commands, as far as the template at a position has put them there.
-/
def counterBytes (position : Nat) (counter : ArrayRef) (s : Session μ) (bytes : List UInt8) :
    List (Command μ) → List UInt8
  | [] => bytes
  | c :: more =>
    counterBytes position counter (step c s).state (bytesAfter position counter s c bytes) more

/-- Whether all of several commands leave a counter to the templates. -/
def LeavesCounter (counter : ArrayRef) (s : Session μ) : List (Command μ) → Prop
  | [] => True
  | c :: more => c.LeavesCounter counter s ∧ LeavesCounter counter (step c s).state more

theorem bytesAfter_of_idle (htrace : commandTrace s command = []) :
    bytesAfter position counter s command bytes = bytes := by
  unfold bytesAfter
  rw [htrace]
  exact ite_self bytes

/-! ## The invariant -/

/-- The template at a position has a counter of its own on the card, which is out of the undo log
and has these bytes. -/
structure Owned (position : Nat) (counter : ArrayRef) (bytes : List UInt8) (s : Session μ) :
    Prop where
  sound : s.Sound
  own : s.counters[position]? = some counter
  alone : ∀ other, s.counters[other]? = some counter → other = position
  descriptor : s.card.memory.store.descriptor? counter = some TryCounter.descriptor
  shows : s.card.memory.Shows counter bytes

omit [Matcher μ] in
theorem Owned.isPersistent (h : s.Owned position counter bytes) :
    s.card.memory.store.IsPersistent counter := ⟨_, h.descriptor, rfl⟩

/-- Whatever the command, the template keeps its counter and no other gets it. -/
theorem Owned.counters_step (h : s.Owned position counter bytes) (command : Command μ) :
    (step command s).state.counters[position]? = some counter ∧
      ∀ other, (step command s).state.counters[other]? = some counter → other = position := by
  rcases h.sound.counters_cases command with hsame | ⟨new, hfree, hnew, _⟩
  · rw [hsame]
    exact ⟨h.own, h.alone⟩
  · have hposition := (List.getElem?_eq_some_iff.mp h.own).1
    rw [hnew]
    refine ⟨(List.getElem?_append_left hposition).trans h.own, fun other hother => ?_⟩
    rcases eq_of_getElem?_concat hother with hold | ⟨_, rfl⟩
    · exact h.alone other hold
    · rw [h.descriptor] at hfree
      cases hfree

/-- The invariant after a command, given what becomes of the counter in memory. -/
theorem Owned.step_of_shows (h : s.Owned position counter bytes) (hplace : ¬command.Replaces s)
    {bytes' : List UInt8}
    (hshows : (step command s).state.card.memory.Shows counter bytes') :
    (step command s).state.Owned position counter bytes' where
  sound := h.sound.step command
  own := (h.counters_step command).1
  alone := (h.counters_step command).2
  descriptor := h.sound.keeps_step_of_place hplace counter _ h.descriptor
  shows := hshows

/-- A new template owns its counter. -/
theorem OneCard.owned_makeTemplate (h : OneCard s₀) {bioType limit : UInt8} {matcher : μ}
    (hmake : (Session.step (.makeTemplate bioType limit matcher) s₀).result =
      .ok (.template position counter)) :
    (Session.step (.makeTemplate bioType limit matcher) s₀).state.Owned position counter
      [limit, limit] := by
  have hhosting := h.hosting
  have hfree := hhosting.sound.free_of_makeTemplate hmake
  rcases hhosting.sound.counters_makeTemplate bioType limit matcher with
    ⟨⟨e, he⟩, _⟩ | ⟨array, hok, hnew, hholds⟩
  · rw [hmake] at he
    cases he
  · rw [hmake] at hok
    cases hok
    refine ⟨hhosting.sound.step _, ?_, fun other hother => ?_, hholds.descriptor, hholds.shows⟩
    · rw [hnew]
      exact List.getElem?_concat_length
    · rw [hnew] at hother
      rcases eq_of_getElem?_concat hother with hold | ⟨hlast, _⟩
      · exact absurd hfree (hhosting.counters _ (List.mem_of_getElem? hold))
      · exact hlast

/-! ## Commands -/

/-- What becomes of a counter in a command: after it, and in each of its operations. -/
structure Owned.Passage (position : Nat) (counter : ArrayRef) (bytes : List UInt8) (s : Session μ)
    (command : Command μ) : Prop where
  owned : (step command s).state.Owned position counter
    (bytesAfter position counter s command bytes)
  moments : ∀ step ∈ commandTrace s command,
    step.2.Passage counter bytes (bytesAfter position counter s command bytes) step.1

theorem Owned.passage_of_idle (h : s.Owned position counter bytes) (hplace : ¬command.Replaces s)
    (htrace : commandTrace s command = [])
    (hshows : (step command s).state.card.memory.Shows counter bytes) :
    Owned.Passage position counter bytes s command := by
  refine ⟨?_, ?_⟩
  · rw [bytesAfter_of_idle htrace]
    exact h.step_of_shows hplace hshows
  · rw [htrace]
    nofun

/-- A command for the template updates its counter, if at all. -/
theorem Owned.passage_own (h : s.Owned position counter bytes)
    (hposition : command.position? = some position) :
    Owned.Passage position counter bytes s command := by
  have hrestore := Command.isRestore_of_position? hposition
  have hplace := Command.not_replaces (s := s) hrestore
  have hsteps := h.sound.steps_command hrestore
  have htrace : commandTrace s command = [] ∨ ∃ offset new,
      offset + new.length ≤ TryCounter.descriptor.byteLength ∧
      commandTrace s command =
        [(s.card.memory, .write ⟨.unconditional, counter, offset, new⟩)] := by
    unfold commandTrace
    rcases hr : command.request s with e | ops
    · exact .inl rfl
    · cases Command.updates_request hposition h.own ops hr with
      | nothing => exact .inl rfl
      | write hfits => exact .inr ⟨_, _, hfits, Operation.trace_singleton _ _⟩
  rcases htrace with htrace | ⟨offset, new, hfits, htrace⟩
  · apply h.passage_of_idle hplace htrace
    rw [htrace] at hsteps
    generalize (step command s).state.card.memory = m at hsteps
    cases hsteps
    exact h.shows
  · have hpassage := Write.passage_of_unconditional (w := ⟨.unconditional, counter, offset, new⟩)
      h.sound.memory h.sound.settled rfl h.descriptor rfl hfits h.shows
    have hafter : bytesAfter position counter s command bytes =
        Write.onto ⟨.unconditional, counter, offset, new⟩ s.card.memory bytes := by
      unfold bytesAfter
      rw [if_pos hposition, htrace]
      exact if_pos ⟨rfl, rfl⟩
    refine ⟨?_, ?_⟩
    · rw [hafter]
      apply h.step_of_shows hplace
      rw [htrace] at hsteps
      generalize (step command s).state.card.memory = m at hsteps
      cases hsteps with
      | cons hrest =>
        cases hrest
        exact hpassage.left
    · rw [hafter, htrace]
      exact List.forall_mem_singleton.mpr hpassage

/-- A command that names another array, or none, leaves the counter alone. -/
theorem Owned.passage_other (h : s.Owned position counter bytes)
    (hrestore : command.isRestore = false) (hother : command.position? ≠ some position)
    (hdestination : command.destination? s ≠ some counter) :
    Owned.Passage position counter bytes s command := by
  have hops : ∀ step ∈ commandTrace s command, ¬step.2.Names counter := by
    intro step hstep
    obtain ⟨ops, hr, _, htrace⟩ := h.sound.asked_of_mem hstep
    exact Command.spares_request h.isPersistent hdestination ops hr _ (mem_trace htrace)
  obtain ⟨hend, hmoments⟩ := (h.sound.steps_command hrestore).passages h.sound.memory
    h.sound.settled h.isPersistent h.shows hops
  have hafter : bytesAfter position counter s command bytes = bytes := if_neg hother
  refine ⟨?_, ?_⟩
  · rw [hafter]
    exact h.step_of_shows (Command.not_replaces hrestore) hend
  · rw [hafter]
    exact hmoments

/-- The card comes up from its own image with the counter as it is, in the middle of a transaction,
too. -/
theorem Owned.shows_restore (h : s.Owned position counter bytes)
    (hrestore : command.isRestore = true) (hplace : ¬command.Replaces s) :
    (step command s).state.card.memory.Shows counter bytes := by
  rcases h.sound.restored_of_place hrestore hplace with hsame | ⟨htable, hentries⟩
  · rw [hsame]
    exact h.shows
  · have hspares := h.sound.memory.spares_recovered h.isPersistent h.shows.unlogged
    refine ⟨?_, Memory.unlogged_of_nil hentries⟩
    unfold Store.payload?
    rw [htable]
    exact (h.shows.spared hspares).payload

/-- What becomes of a counter in a command that leaves it to the templates. -/
theorem Owned.passage (h : s.Owned position counter bytes)
    (hleaves : command.LeavesCounter counter s) :
    Owned.Passage position counter bytes s command := by
  by_cases hposition : command.position? = some position
  · exact h.passage_own hposition
  · rcases hrestore : command.isRestore with _ | _
    · exact h.passage_other hrestore hposition (hleaves.destination hposition h.alone)
    · exact h.passage_of_idle hleaves.1 (commandTrace_restore hrestore)
        (h.shows_restore hrestore hleaves.1)

/-- What becomes of a counter in a run that leaves it to the templates. -/
theorem Owned.run (h : s.Owned position counter bytes) {cs : List (Command μ)}
    (hcs : LeavesCounter counter s cs) :
    (run s cs).2.Owned position counter (counterBytes position counter s bytes cs) := by
  induction cs generalizing s bytes with
  | nil => exact h
  | cons c more ih => exact ih (h.passage hcs.1).owned hcs.2

/-! ## The law -/

/-- Tries that are spent stay spent. A template is made on a card, and then come commands of any
kind, none of which but those for templates names its counter. After them the two bytes of the
counter are what the unconditional writes of this template have put there, torn ones as far as they
went. The same holds at every moment within the next command, whatever it is; and if it is not for
this template, be it the end of a transaction, a reset or the restoration of the card from its own
image, the bytes stay as they are. -/
theorem spent_tries_law (hcard : OneCard s₀) {bioType limit : UInt8} {matcher : μ}
    (hmake : (step (.makeTemplate bioType limit matcher) s₀).result =
      .ok (.template position counter))
    {enrolled : Session μ}
    (henrolled : enrolled = (step (.makeTemplate bioType limit matcher) s₀).state)
    {cs : List (Command μ)} (hcs : LeavesCounter counter enrolled cs)
    (hs : s = (run enrolled cs).2)
    (hbytes : bytes = counterBytes position counter enrolled [limit, limit] cs) :
    s.card.memory.store.payload? counter = some bytes ∧ s.card.memory.Unlogged counter ∧
      ∀ command : Command μ, command.LeavesCounter counter s →
        (step command s).state.card.memory.store.payload? counter =
          some (bytesAfter position counter s command bytes) ∧
        (command.position? ≠ some position →
          bytesAfter position counter s command bytes = bytes) ∧
        ∀ {m op}, (m, op) ∈ commandTrace s command →
          op.Passage counter bytes (bytesAfter position counter s command bytes) m := by
  subst henrolled hs hbytes
  have howned := (hcard.owned_makeTemplate hmake).run hcs
  refine ⟨howned.shows.payload, howned.shows.unlogged, fun command hleaves => ?_⟩
  have hpassage := howned.passage hleaves
  exact ⟨hpassage.owned.shows.payload, fun hother => if_neg hother,
    fun hmem => hpassage.moments _ hmem⟩

/-- A session with one template, which has three tries and fails every candidate. -/
def threeTries : Session ConstantScore := (step (.makeTemplate 3 3 ⟨0⟩) fresh).state

/-- A failed match in a transaction, and then a new limit that power is lost for: of its two bytes
only the first gets through, which leaves the try spent. Another transaction is left open. -/
def tornRefill : List (Command ConstantScore) :=
  [.templateInit 0 [1], .templateFinish 0, .begin, .templateInitMatch 0 [2], .injectPowerLoss 1,
    .templateResetTryLimit 0 5, .begin]

/-- The session after it. -/
def refillTorn : Session ConstantScore := (run threeTries tornRefill).2

/-- The card comes up from its own image with the torn limit and the tries that were left. -/
theorem spent_tries_law_torn :
    (step (.restore {} refillTorn.card.image) refillTorn).state.card.memory.store.payload? ⟨1⟩ =
      some [5, 2] := by
  have hcard : OneCard fresh := .start reachable_fresh
  have hmake : (step (.makeTemplate 3 3 ⟨0⟩) fresh).result = .ok (.template 0 ⟨1⟩) := by rfl
  have hcs : LeavesCounter ⟨1⟩ threeTries tornRefill :=
    ⟨⟨id, nofun⟩, ⟨id, nofun⟩, ⟨id, nofun⟩, ⟨id, nofun⟩, ⟨id, nofun⟩, ⟨id, nofun⟩, ⟨id, nofun⟩,
      trivial⟩
  have hbytes : [5, 2] = counterBytes 0 ⟨1⟩ threeTries [3, 3] tornRefill := by decide +kernel
  obtain ⟨_, _, hnext⟩ := spent_tries_law (s := refillTorn) hcard hmake rfl hcs rfl hbytes
  obtain ⟨hpayload, hsame, _⟩ := hnext (.restore {} refillTorn.card.image)
    ⟨fun hreplaces => hreplaces.1 rfl, nofun⟩
  rw [hsame nofun] at hpayload
  exact hpayload

end Session

end SmartCard
