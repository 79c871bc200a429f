-- SUMMARY: How often a template lets its matcher fail a candidate before its try counter is refilled.
import SmartCard.Proofs.Session.Counters

/-!
# The try limit

The failures of a matcher are counted from one refill of the try counter to the next, in any run
that leaves the counter's array to its template. Each failure spends a try, except where a tear
strikes the update of the counter: the matcher has been asked by then, and the try is kept. Hence
the matcher fails more candidates than the last refill allowed just when more failures were torn
than tries are left.

The limit of a tally is that of the last refill, and not always the one that the counter holds now:
if power is lost after the first byte of the update that sets a new limit, the counter holds the new
limit with the old tries, and the new limit counts from the next refill on.
-/

namespace SmartCard.Session

variable {μ : Type}

/-! ## Tallies -/

/-- What has happened since the counter of a template was last refilled. -/
structure Tally where
  /-- The limit that the counter held after the refill. -/
  limit : Nat
  /-- How often the matcher has failed a candidate. -/
  failed : Nat
  /-- At how many of these failures power was lost. -/
  torn : Nat
  deriving DecidableEq, Repr

/-- The tally of a counter that was just refilled. -/
def Tally.refilled (limit : UInt8) : Tally := ⟨limit.toNat, 0, 0⟩

/-- A tally that agrees with a counter with `left` tries. -/
structure Tally.Agrees (t : Tally) (left : UInt8) : Prop where
  balance : t.failed + left.toNat = t.limit + t.torn
  torn_le : t.torn ≤ t.failed

/-- The try limit of the template at a position. -/
def tryLimit (position : Nat) (s : Session μ) : UInt8 :=
  match s.templates[position]? with
  | some t => (TryCounter.limit s.card.memory t.counter).toOption.getD 0
  | none => 0

variable [Matcher μ]

/-- The tally after a command. -/
def Tally.after (position : Nat) (s : Session (Recorder μ)) (c : Command (Recorder μ))
    (t : Tally) : Tally :=
  let o := step c s
  let failed := failures position o.state - failures position s
  if c.refills position o.result then .refilled (tryLimit position o.state)
  else ⟨t.limit, t.failed + failed, t.torn + if lostPower o.result then failed else 0⟩

/-- The tally after commands. -/
def Tally.run (position : Nat) (s : Session (Recorder μ)) (t : Tally) :
    List (Command (Recorder μ)) → Tally
  | [] => t
  | c :: more => Tally.run position (step c s).state (t.after position s c) more

/-- Whether only commands for the template at a position name its counter, and the card stays the
same. -/
def undisturbed (position : Nat) (counter : ArrayRef) (s : Session μ) : List (Command μ) → Bool
  | [] => true
  | c :: more =>
    !c.isRestore && (c.position? == some position || c.destination? s != some counter) &&
      undisturbed position counter (step c s).state more

/-! ## Agreement -/

variable {position : Nat} {counter : ArrayRef} {limit left : UInt8}
variable {s : Session (Recorder μ)} {t : Tally}

theorem Tally.agrees_refilled (limit : UInt8) : (Tally.refilled limit).Agrees limit :=
  ⟨Nat.zero_add _, Nat.le_refl 0⟩

theorem toNat_spent {n : UInt8} (h : n ≠ 0) : (n - 1).toNat + 1 = n.toNat := by
  have hpos : 0 < n.toNat := Nat.pos_of_ne_zero fun hzero => h (UInt8.toNat.inj hzero)
  rw [UInt8.toNat_sub_of_le n 1 (UInt8.le_iff_toNat_le.mpr hpos)]
  exact Nat.sub_add_cancel hpos

/-- A turn changes the tally as it changes the counter. -/
theorem Tally.Agrees.turn (h : t.Agrees left) {limit' left' : UInt8} {n : Nat}
    {refilled lost : Bool} (hturn : Turn left limit' left' n refilled lost) :
    Tally.Agrees (if refilled then .refilled limit'
      else ⟨t.limit, t.failed + n, t.torn + if lost then n else 0⟩) left' := by
  obtain ⟨hbalance, htorn⟩ := h
  cases hturn with
  | @none lost hleft =>
    rw [hleft, ite_self]
    exact ⟨hbalance, htorn⟩
  | refilled hleft =>
    rw [hleft]
    exact Tally.agrees_refilled limit'
  | spent hne hleft =>
    have hspent := toNat_spent hne
    rw [← hleft] at hspent
    refine ⟨?_, ?_⟩
    · show t.failed + 1 + left'.toNat = t.limit + t.torn
      omega
    · show t.torn ≤ t.failed + 1
      omega
  | torn hleft =>
    rw [hleft]
    refine ⟨?_, ?_⟩
    · show t.failed + 1 + left.toNat = t.limit + (t.torn + 1)
      omega
    · show t.torn + 1 ≤ t.failed + 1
      omega

omit [Matcher μ] in
theorem Guarded.tryLimit_eq (h : Guarded position counter limit left s) :
    tryLimit position s = limit := by
  obtain ⟨t, ht, hguarded⟩ := h
  unfold tryLimit
  rw [ht]
  dsimp only
  rw [hguarded.counter, hguarded.holds.limit_eq]
  rfl

/-- A command that takes a turn keeps the agreement. -/
theorem Tally.Agrees.after (h : t.Agrees left) {c : Command (Recorder μ)}
    (hturn : TakesTurn position counter left s c) :
    ∃ limit' left', Guarded position counter limit' left' (step c s).state ∧
      (t.after position s c).Agrees left' := by
  obtain ⟨n, limit', left', hfailures, hguarded, hturn⟩ := hturn
  refine ⟨limit', left', hguarded, ?_⟩
  unfold Tally.after
  dsimp only
  rw [hfailures, Nat.add_sub_cancel_left, hguarded.tryLimit_eq]
  exact h.turn hturn

/-- Commands that leave the counter to its template keep the agreement. -/
theorem Guarded.agrees_run (h : Guarded position counter limit left s) (hsound : s.Sound)
    (ht : t.Agrees left) {cs : List (Command (Recorder μ))}
    (hcs : undisturbed position counter s cs = true) :
    ∃ limit' left', Guarded position counter limit' left' (run s cs).2 ∧
      (t.run position s cs).Agrees left' := by
  induction cs generalizing s t limit left with
  | nil => exact ⟨limit, left, h, ht⟩
  | cons c more ih =>
    rw [undisturbed, Bool.and_eq_true, Bool.and_eq_true, Bool.not_eq_true', Bool.or_eq_true] at hcs
    obtain ⟨⟨hrestore, hnamed⟩, hmore⟩ := hcs
    have hturn : TakesTurn position counter left s c := by
      by_cases hown : c.position? = some position
      · exact h.takesTurn_own hown
      · rcases hnamed with hposition | hdestination
        · exact absurd (eq_of_beq hposition) hown
        · exact h.takesTurn_other hsound hrestore hown (bne_iff_ne.mp hdestination)
    obtain ⟨limit', left', hguarded, hagrees⟩ := ht.after hturn
    exact ih hguarded (hsound.step c) hagrees hmore

/-! ## The law -/

/-- The try-limit law. A template is made and used in any run that leaves its counter to it. Since
the last refill the tries that are spent are the failures that were not torn; hence the matcher has
failed more candidates than the limit of that refill exactly if more failures were torn than tries
are left. -/
theorem tries_law {s₀ s : Session (Recorder μ)} (hreachable : Reachable s₀) {bioType limit : UInt8}
    {matcher : Recorder μ}
    (hmake : (step (.makeTemplate bioType limit matcher) s₀).result =
      .ok (.template position counter))
    (hs : s = (step (.makeTemplate bioType limit matcher) s₀).state)
    {cs : List (Command (Recorder μ))} (hcs : undisturbed position counter s cs = true)
    (ht : t = Tally.run position s (.refilled limit) cs) :
    ∃ left, TryCounter.remaining (run s cs).2.card.memory counter = .ok left ∧
      t.failed + left.toNat = t.limit + t.torn ∧ t.torn ≤ t.failed ∧
      (t.limit < t.failed ↔ left.toNat < t.torn) := by
  have hsound : s.Sound := hs ▸ hreachable.sound.step _
  have hguarded : Guarded position counter limit limit s := hs ▸ hreachable.sound.guarded_make hmake
  obtain ⟨limit', left, ⟨template, _, hbench⟩, hagrees⟩ :=
    hguarded.agrees_run hsound (Tally.agrees_refilled limit) hcs
  rw [← ht] at hagrees
  obtain ⟨hbalance, htorn⟩ := hagrees
  exact ⟨left, hbench.holds.remaining_eq, hbalance, htorn, by omega⟩

/-- A session with one template, which has a single try and fails every candidate. -/
def oneTry : Session (Recorder ConstantScore) :=
  (step (.makeTemplate 3 1 ⟨⟨0⟩, []⟩) (.start (.blank {}))).state

/-- Enrolment, a match during which power is lost, and another match. -/
def tornMatch : List (Command (Recorder ConstantScore)) :=
  [.templateInit 0 [1], .templateFinish 0, .injectPowerLoss 0, .templateInitMatch 0 [2],
    .templateInitMatch 0 [2]]

/-- The tally after a torn match and another one. -/
def tornTally : Tally := Tally.run 0 oneTry (.refilled 1) tornMatch

/-- After a torn match and another one no try is left, and one failure was free. -/
theorem tries_law_tornMatch :
    ∃ left, TryCounter.remaining (run oneTry tornMatch).2.card.memory ⟨1⟩ = .ok left ∧
      tornTally.failed + left.toNat = tornTally.limit + tornTally.torn := by
  have hreachable : Reachable (.start (.blank {}) : Session (Recorder ConstantScore)) :=
    .start (c := {}) rfl
  have hmake : (step (.makeTemplate 3 1 ⟨⟨0⟩, []⟩)
      (.start (.blank {}) : Session (Recorder ConstantScore))).result =
        .ok (.template 0 ⟨1⟩) := by rfl
  have hcs : undisturbed 0 ⟨1⟩ oneTry tornMatch = true := by decide +kernel
  obtain ⟨left, hleft, hbalance, _⟩ := tries_law hreachable hmake rfl hcs rfl
  exact ⟨left, hleft, hbalance⟩

/-- With a single try, the matcher fails two candidates. -/
theorem failures_exceed_limit :
    undisturbed 0 ⟨1⟩ oneTry tornMatch = true ∧ tornTally.limit < tornTally.failed := by
  decide +kernel

end SmartCard.Session
