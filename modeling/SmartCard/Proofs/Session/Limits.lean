-- SUMMARY: A try counter has no more tries left than its limit, until a lower limit is torn between its two bytes.
import SmartCard.Proofs.Session.SpentTries

/-!
# Limits

The limit of a try counter and the tries that are left lie side by side in card memory. Matches
write the second byte only, and leave it within the limit. A new limit is written to both, the limit
first. Power that is lost between the two leaves the new limit with the tries of before, which are
too many if the limit was to be lowered below them. Nothing else gets a counter beyond its limit,
and nothing at all makes the limit zero.
-/

namespace SmartCard

variable {μ : Type} {counter : ArrayRef} {limit left n : UInt8}

theorem one_le_of_ne_zero (h : n ≠ 0) : 1 ≤ n :=
  UInt8.le_iff_toNat_le.mpr (UInt8.lt_iff_toNat_lt.mp (UInt8.pos_iff_ne_zero.mpr h))

/-! ## Bytes of a counter -/

namespace Write

/-- A write to the tries that are left gets through, or it does not. -/
theorem onto_tries (m : Memory) (counter : ArrayRef) (limit left n : UInt8) :
    onto ⟨.unconditional, counter, 1, [n]⟩ m [limit, left] = [limit, left] ∨
      onto ⟨.unconditional, counter, 1, [n]⟩ m [limit, left] = [limit, n] := by
  unfold onto covered
  rcases m.store.tear with _ | budget
  · exact .inr rfl
  · dsimp only
    rcases budget.toNat with _ | more
    · exact .inl rfl
    · have htake : [n].take (more + 1) = [n] := List.take_of_length_le (by simp)
      rw [htake]
      exact .inr rfl

/-- A write to both bytes gets through, or only the first byte does, or none. -/
theorem onto_both (m : Memory) (counter : ArrayRef) (limit left n : UInt8) :
    onto ⟨.unconditional, counter, 0, [n, n]⟩ m [limit, left] =
      if m.store.tear = some 0 then [limit, left]
      else if m.store.tear = some 1 then [n, left] else [n, n] := by
  unfold onto covered
  rcases m.store.tear with _ | budget
  · rfl
  · have htear : ∀ k : UInt64, some budget = some k ↔ budget.toNat = k.toNat := fun k =>
      (Option.some.injEq budget k).to_iff.trans ⟨congrArg _, fun h => UInt64.toNat.inj h⟩
    simp only [htear]
    rcases budget.toNat with _ | _ | more
    · rfl
    · rfl
    · have htake : [n, n].take (more + 1 + 1) = [n, n] := List.take_of_length_le (by simp)
      rw [htake]
      rfl

end Write

/-! ## What commands ask of a counter -/

namespace Command

/-- Operations that leave a counter within its limit: none, or one write to the tries that are left.
-/
inductive Counts (counter : ArrayRef) (limit left : UInt8) : List Operation → Prop where
  | nothing : Counts counter limit left []
  | tries {n : UInt8} : (left ≤ limit → n ≤ limit) →
      Counts counter limit left [.write ⟨.unconditional, counter, 1, [n]⟩]

open AsksFor

theorem counts_settling {m : Memory} (hlimit : TryCounter.limit m counter = .ok limit)
    (hleft : TryCounter.remaining m counter = .ok left) (score : Int16) :
    AsksFor (Counts counter limit left) (settling m counter score) := by
  unfold settling
  rw [hlimit, hleft]
  split
  · exact refused _
  · exact made .nothing
  · exact made (.tries fun _ => UInt8.le_refl limit)
  · refine made (.tries fun hle => ?_)
    split
    · exact UInt8.zero_le
    next hne => exact UInt8.le_trans (UInt8.sub_le (one_le_of_ne_zero hne)) hle

variable [Matcher μ] {s : Session μ} {command : Command μ} {position : Nat}

/-- A command for a template that sets no new limit leaves its counter within the limit. -/
theorem counts_request (hposition : command.position? = some position)
    (hset : ∀ n, n ≠ 0 → command ≠ .templateResetTryLimit position n)
    (hcounter : s.counters[position]? = some counter)
    (hlimit : TryCounter.limit s.card.memory counter = .ok limit)
    (hleft : TryCounter.remaining s.card.memory counter = .ok left) :
    AsksFor (Counts counter limit left) (command.request s) := by
  cases command
  case templateInitMatch other candidate =>
    cases hposition
    refine .onTemplate fun t ht => checked fun _ _ => checked fun _ _ => either (made .nothing) ?_
    obtain rfl := Session.counter_eq hcounter ht
    exact counts_settling hlimit hleft _
  case templateMatch other candidate =>
    cases hposition
    refine .onTemplate fun t ht => either ?_ (refused _)
    obtain rfl := Session.counter_eq hcounter ht
    exact counts_settling hlimit hleft _
  case templateResetTryLimit other n =>
    cases hposition
    have hzero : n = 0 := by_contra fun hn => hset n hn rfl
    subst hzero
    exact .onTemplate fun _ _ => refused _
  all_goals first
    | exact query .nothing _
    | cases hposition

/-- What a new limit asks. -/
theorem request_resetTryLimit (hcounter : s.counters[position]? = some counter) (hn : n ≠ 0) :
    (templateResetTryLimit position n).request s =
      .ok [.write ⟨.unconditional, counter, 0, [n, n]⟩] := by
  obtain ⟨t, ht, rfl⟩ : ∃ t, s.templates[position]? = some t ∧ t.counter = counter := by
    rwa [Session.getElem?_counters, Option.map_eq_some_iff] at hcounter
  unfold request onTemplate TryCounter.checkLimit
  dsimp only
  rw [ht, if_neg hn]
  rfl

end Command

namespace Session

variable [Matcher μ] {s s₀ made : Session μ} {command : Command μ} {position : Nat}

/-! ## Tries within the limit -/

/-- A counter has a limit, and no more tries left than that. -/
def Within (counter : ArrayRef) (s : Session μ) : Prop :=
  ∃ limit left, TryCounter.limit s.card.memory counter = .ok limit ∧
    TryCounter.remaining s.card.memory counter = .ok left ∧ 1 ≤ limit ∧ left ≤ limit

/-- A command is to lower the limit below the tries that are left, and power is lost for the second
of the two bytes that it writes. -/
def LowersTorn (position : Nat) (counter : ArrayRef) (s : Session μ) (command : Command μ) : Prop :=
  ∃ n left, command = .templateResetTryLimit position n ∧ n ≠ 0 ∧
    TryCounter.remaining s.card.memory counter = .ok left ∧ n < left ∧
    s.card.memory.store.tear = some 1

/-- Whether a counter is within its limit now and after each of the commands. -/
def AlwaysWithin (counter : ArrayRef) (s : Session μ) : List (Command μ) → Prop
  | [] => Within counter s
  | c :: more => Within counter s ∧ AlwaysWithin counter (step c s).state more

/-- Whether none of the commands loses power in lowering the limit. -/
def NeverLowersTorn (position : Nat) (counter : ArrayRef) (s : Session μ) : List (Command μ) → Prop
  | [] => True
  | c :: more =>
    ¬LowersTorn position counter s c ∧ NeverLowersTorn position counter (step c s).state more

/-! ## Commands -/

omit [Matcher μ] in
theorem Owned.byteAt_eq {bytes : List UInt8} (h : s.Owned position counter bytes) {i : Nat}
    {b : UInt8} (hb : bytes[i]? = some b) :
    TryCounter.byteAt s.card.memory counter i = .ok b := by
  apply TryCounter.byteAt_eq_ok h.sound.memory
  have hpayload := h.shows.payload
  unfold Store.payload? at hpayload
  obtain ⟨cell, hfound, rfl⟩ := Option.map_eq_some_iff.mp hpayload
  unfold Store.byte?
  rw [hfound]
  exact hb

/-- A command that writes to the counter once puts its bytes onto those of before. -/
theorem bytesAfter_write {w : Write} (bytes : List UInt8)
    (hposition : command.position? = some position) (hlane : w.lane = .unconditional)
    (harray : w.array = counter) (hrequest : command.request s = .ok [.write w]) :
    bytesAfter position counter s command bytes = w.onto s.card.memory bytes := by
  unfold bytesAfter commandTrace
  rw [if_pos hposition, hrequest]
  dsimp only
  rw [Operation.trace_singleton]
  exact if_pos ⟨hlane, harray⟩

/-- What becomes of the two bytes of a counter in one command. The limit does not come to zero, and
the tries that are left get beyond it in one way only. -/
structure Recount (position : Nat) (counter : ArrayRef) (s : Session μ) (command : Command μ)
    (limit left limit' left' : UInt8) : Prop where
  bytes : bytesAfter position counter s command [limit, left] = [limit', left']
  nonzero : limit ≠ 0 → limit' ≠ 0
  within : left ≤ limit → (left' ≤ limit' ↔ ¬LowersTorn position counter s command)

omit [Matcher μ] in
theorem lowersTorn_iff (hn : n ≠ 0)
    (hleft : TryCounter.remaining s.card.memory counter = .ok left) :
    LowersTorn position counter s (.templateResetTryLimit position n) ↔
      n < left ∧ s.card.memory.store.tear = some 1 := by
  refine ⟨?_, fun ⟨hlt, htear⟩ => ⟨n, left, rfl, hn, hleft, hlt, htear⟩⟩
  rintro ⟨n', left', hcommand, _, hleft', hlt, htear⟩
  cases hcommand
  cases hleft.symm.trans hleft'
  exact ⟨hlt, htear⟩

omit [Matcher μ] in
theorem not_lowersTorn (hset : ∀ n, n ≠ 0 → command ≠ .templateResetTryLimit position n) :
    ¬LowersTorn position counter s command := by
  rintro ⟨n, _, hcommand, hn, _⟩
  exact hset n hn hcommand

/-- A new limit. -/
theorem Owned.recount_refill (h : s.Owned position counter [limit, left]) (hn : n ≠ 0) :
    ∃ limit' left', Recount position counter s (.templateResetTryLimit position n) limit left
      limit' left' := by
  have hposition :
      (Command.templateResetTryLimit position n : Command μ).position? = some position := rfl
  have hbytes := bytesAfter_write [limit, left] hposition rfl rfl
    (Command.request_resetTryLimit h.own hn)
  have hlowers : LowersTorn position counter s (.templateResetTryLimit position n) ↔ _ :=
    lowersTorn_iff hn (h.byteAt_eq rfl)
  rw [Write.onto_both] at hbytes
  split at hbytes
  next hnone =>
    have htear : s.card.memory.store.tear ≠ some 1 := by
      rw [hnone]
      decide
    refine ⟨limit, left, hbytes, id, fun hle => ?_⟩
    rw [hlowers]
    exact ⟨fun _ hlost => htear hlost.2, fun _ => hle⟩
  next =>
    split at hbytes
    next htear =>
      refine ⟨n, left, hbytes, fun _ => hn, fun _ => ?_⟩
      rw [hlowers, ← UInt8.not_lt]
      exact not_congr ⟨fun hlt => ⟨hlt, htear⟩, And.left⟩
    next htear =>
      refine ⟨n, n, hbytes, fun _ => hn, fun _ => ?_⟩
      rw [hlowers]
      exact ⟨fun _ hlost => htear hlost.2, fun _ => UInt8.le_refl n⟩

/-- Any other command. -/
theorem Owned.recount_other (h : s.Owned position counter [limit, left])
    (hset : ∀ n, n ≠ 0 → command ≠ .templateResetTryLimit position n) :
    ∃ left', Recount position counter s command limit left limit left' := by
  have hlowers : ¬LowersTorn position counter s command := not_lowersTorn hset
  have hkept : bytesAfter position counter s command [limit, left] = [limit, left] →
      Recount position counter s command limit left limit left :=
    fun hbytes => ⟨hbytes, id, fun hle => ⟨fun _ => hlowers, fun _ => hle⟩⟩
  by_cases hposition : command.position? = some position
  · rcases hr : command.request s with e | ops
    · refine ⟨left, hkept (bytesAfter_of_idle ?_)⟩
      unfold commandTrace
      rw [hr]
    · have hcounts := Command.counts_request hposition hset h.own (h.byteAt_eq rfl) (h.byteAt_eq rfl)
      cases hcounts ops hr with
      | nothing =>
        refine ⟨left, hkept (bytesAfter_of_idle ?_)⟩
        unfold commandTrace
        rw [hr]
        rfl
      | @tries n hn =>
        have hbytes := bytesAfter_write [limit, left] hposition rfl rfl hr
        rcases Write.onto_tries s.card.memory counter limit left n with hold | hnew
        · exact ⟨left, hkept (hbytes.trans hold)⟩
        · exact ⟨n, hbytes.trans hnew, id, fun hle => ⟨fun _ => hlowers, fun _ => hn hle⟩⟩
  · exact ⟨left, hkept (if_neg hposition)⟩

theorem Owned.recount (h : s.Owned position counter [limit, left]) (command : Command μ) :
    ∃ limit' left', Recount position counter s command limit left limit' left' := by
  by_cases hset : ∃ n, n ≠ 0 ∧ command = .templateResetTryLimit position n
  · obtain ⟨n, hn, rfl⟩ := hset
    exact h.recount_refill hn
  · exact ⟨limit, h.recount_other fun n hn hcommand => hset ⟨n, hn, hcommand⟩⟩

/-! ## Runs -/

omit [Matcher μ] in
theorem Owned.within_iff (h : s.Owned position counter [limit, left]) (hlimit : limit ≠ 0) :
    Within counter s ↔ left ≤ limit := by
  have hpos : 1 ≤ limit := one_le_of_ne_zero hlimit
  refine ⟨?_, fun hle => ⟨limit, left, h.byteAt_eq rfl, h.byteAt_eq rfl, hpos, hle⟩⟩
  rintro ⟨limit', left', hlimit', hleft', _, hle⟩
  cases hlimit'.symm.trans (h.byteAt_eq rfl)
  cases hleft'.symm.trans (h.byteAt_eq rfl)
  exact hle

theorem AlwaysWithin.now {cs : List (Command μ)} (h : AlwaysWithin counter s cs) :
    Within counter s := by
  cases cs with
  | nil => exact h
  | cons => exact h.1

theorem Recount.owned (h : s.Owned position counter [limit, left]) {limit' left' : UInt8}
    (hrecount : Recount position counter s command limit left limit' left')
    (hleaves : command.LeavesCounter counter s) :
    (step command s).state.Owned position counter [limit', left'] := by
  rw [← hrecount.bytes]
  exact (h.passage hleaves).owned

/-- A limit never comes to zero. -/
theorem Owned.limit_run (h : s.Owned position counter [limit, left]) (hlimit : limit ≠ 0)
    {cs : List (Command μ)} (hcs : LeavesCounter counter s cs) :
    ∃ limit' left', (Session.run s cs).2.Owned position counter [limit', left'] ∧ limit' ≠ 0 := by
  induction cs generalizing s limit left with
  | nil => exact ⟨limit, left, h, hlimit⟩
  | cons c more ih =>
    obtain ⟨limit', left', hrecount⟩ := h.recount c
    exact ih (hrecount.owned h hcs.1) (hrecount.nonzero hlimit) hcs.2

/-- A counter stays within its limit exactly if no command loses power in lowering it. -/
theorem Owned.alwaysWithin_iff (h : s.Owned position counter [limit, left]) (hlimit : limit ≠ 0)
    (hle : left ≤ limit) {cs : List (Command μ)} (hcs : LeavesCounter counter s cs) :
    AlwaysWithin counter s cs ↔ NeverLowersTorn position counter s cs := by
  have hnow : Within counter s := (h.within_iff hlimit).mpr hle
  induction cs generalizing s limit left with
  | nil => exact ⟨fun _ => trivial, fun _ => hnow⟩
  | cons c more ih =>
    obtain ⟨limit', left', hrecount⟩ := h.recount c
    have hnext := hrecount.owned h hcs.1
    have hlimit' := hrecount.nonzero hlimit
    have hwithin : Within counter (Session.step c s).state ↔ ¬LowersTorn position counter s c :=
      (hnext.within_iff hlimit').trans (hrecount.within hle)
    have hmore := fun hafter : Within counter (Session.step c s).state =>
      ih hnext hlimit' ((hnext.within_iff hlimit').mp hafter) hcs.2 hafter
    refine ⟨fun ⟨_, halways⟩ => ?_, fun ⟨hnot, hnever⟩ => ?_⟩
    · exact ⟨hwithin.mp halways.now, (hmore halways.now).mp halways⟩
    · exact ⟨hnow, (hmore (hwithin.mpr hnot)).mpr hnever⟩

theorem limit_ne_zero_of_make {bioType : UInt8} {matcher : μ}
    (hmake : (step (.makeTemplate bioType limit matcher) s).result =
      .ok (.template position counter)) : limit ≠ 0 := by
  rintro rfl
  obtain ⟨m, hm, _⟩ := exec_make_of_ok hmake
  have hrefused : (TryCounter.make 0).exec s.card.memory =
    (.error .zeroTryLimit, s.card.memory) := rfl
  rw [hrefused] at hm
  cases hm

/-! ## The law -/

/-- A template is made on a card, and then come commands of any kind, none of which but those for
templates names its counter. Throughout, the limit of the counter is at least one. The tries that
are left stay within it from the first command to the last exactly if no command that is to lower
the limit below them loses power after the first of its two bytes. -/
theorem limits_law (hcard : OneCard s₀) {bioType limit : UInt8} {matcher : μ}
    (hmake : (step (.makeTemplate bioType limit matcher) s₀).result =
      .ok (.template position counter))
    (hmade : made = (step (.makeTemplate bioType limit matcher) s₀).state)
    {cs : List (Command μ)} (hcs : LeavesCounter counter made cs) :
    (∃ limit left, TryCounter.limit (run made cs).2.card.memory counter = .ok limit ∧
      TryCounter.remaining (run made cs).2.card.memory counter = .ok left ∧ 1 ≤ limit) ∧
    (AlwaysWithin counter made cs ↔ NeverLowersTorn position counter made cs) := by
  subst hmade
  have howned := hcard.owned_makeTemplate hmake
  have hlimit := limit_ne_zero_of_make hmake
  obtain ⟨limit', left', hrun, hlimit'⟩ := howned.limit_run hlimit hcs
  exact ⟨⟨limit', left', hrun.byteAt_eq rfl, hrun.byteAt_eq rfl, one_le_of_ne_zero hlimit'⟩,
    howned.alwaysWithin_iff hlimit (UInt8.le_refl limit) hcs⟩

/-- A higher limit that loses power after the first byte, in a transaction that was begun before. -/
def tornRaise : List (Command ConstantScore) :=
  [.begin, .injectPowerLoss 1, .templateResetTryLimit 0 5, .reset]

/-- It leaves the tries that there were within the limit. -/
theorem limits_law_tornRaise : AlwaysWithin ⟨1⟩ threeTries tornRaise := by
  have hmake : (step (.makeTemplate 3 3 ⟨0⟩) fresh).result = .ok (.template 0 ⟨1⟩) := by rfl
  have hcs : LeavesCounter ⟨1⟩ threeTries tornRaise :=
    ⟨⟨id, nofun⟩, ⟨id, nofun⟩, ⟨id, nofun⟩, ⟨id, nofun⟩, trivial⟩
  have hleft : TryCounter.remaining (run threeTries (tornRaise.take 2)).2.card.memory ⟨1⟩ =
    .ok 3 := by rfl
  have hraise : ¬LowersTorn 0 ⟨1⟩ (run threeTries (tornRaise.take 2)).2
      (.templateResetTryLimit 0 5) := by
    rw [lowersTorn_iff (by decide) hleft]
    decide
  have hnever : NeverLowersTorn 0 ⟨1⟩ threeTries tornRaise :=
    ⟨not_lowersTorn nofun, not_lowersTorn nofun, hraise, not_lowersTorn nofun, trivial⟩
  exact (limits_law (.start reachable_fresh) hmake rfl hcs).2.mpr hnever

/-- A lower limit that loses power after the first byte. -/
def tornLowering : List (Command ConstantScore) := [.injectPowerLoss 1, .templateResetTryLimit 0 1]

/-- It leaves three tries under a limit of one. -/
theorem tries_exceed_torn_limit :
    LeavesCounter ⟨1⟩ threeTries tornLowering ∧
      (TryCounter.limit (run threeTries tornLowering).2.card.memory ⟨1⟩).toOption = some 1 ∧
      (TryCounter.remaining (run threeTries tornLowering).2.card.memory ⟨1⟩).toOption = some 3 :=
  ⟨⟨⟨id, nofun⟩, ⟨id, nofun⟩, trivial⟩, by decide +kernel⟩

end Session

end SmartCard
