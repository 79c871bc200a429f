-- SUMMARY: A configuration document is an overlay on the default configuration, or it is refused.
import SmartCard.Proofs.Config.Foreign

/-!
# Overlays

A document gives values to some of the fields of a configuration, and the other fields keep their
defaults (`Config.Overlaid`). A document with foreign lines, or with an assignment that no field
takes, is refused as a document before the sizes are looked at. Only what is well formed is laid
over the defaults and validated.

The fields are told apart by their keys (`Config.Field`), so each step is proved once for a field
and not for each of the seven.
-/

namespace SmartCard

open Document (Assignment Value)

namespace Config

/-- The fields of a configuration. -/
inductive Field where
  | commitCapacity
  | commitEntryOverhead
  | persistentCapacity
  | transientResetCapacity
  | transientDeselectCapacity
  | integritySensitiveSupported
  | debug
  deriving DecidableEq

namespace Field

/-- The key of a field in documents. -/
def key : Field → String
  | commitCapacity => "commit_capacity"
  | commitEntryOverhead => "commit_entry_overhead"
  | persistentCapacity => "persistent_capacity"
  | transientResetCapacity => "transient_reset_capacity"
  | transientDeselectCapacity => "transient_deselect_capacity"
  | integritySensitiveSupported => "integrity_sensitive_supported"
  | debug => "debug"

/-- What a configuration holds in a field. -/
def value (c : Config) : Field → Value
  | commitCapacity => .integer c.commitCapacity.toNat
  | commitEntryOverhead => .integer c.commitEntryOverhead.toNat
  | persistentCapacity => .integer c.persistentCapacity.toNat
  | transientResetCapacity => .integer c.transientResetCapacity.toNat
  | transientDeselectCapacity => .integer c.transientDeselectCapacity.toNat
  | integritySensitiveSupported => .boolean c.integritySensitiveSupported
  | debug => .boolean c.debug

/-- Whether a field is a flag. The other fields are sizes. -/
def isFlag : Field → Bool
  | integritySensitiveSupported | debug => true
  | _ => false

/-- Flags take booleans, and sizes the integers of 32 bits. -/
def Takes (f : Field) (v : Value) : Prop :=
  if f.isFlag then ∃ b, v = .boolean b
  else ∃ n : Int, v = .integer n ∧ 0 ≤ n ∧ n ≤ 4294967295

end Field

/-- The assignments of a document that can be laid over a configuration. -/
structure Proper (as : List Assignment) : Prop where
  distinct : (as.map (·.key)).Nodup
  taken : ∀ a ∈ as, ∃ f : Field, f.key = a.key ∧ f.Takes a.value

/-- What is wrong with the assignments of a document that cannot be laid over a configuration. -/
inductive Improper (as : List Assignment) : Prop where
  | unknown {a} : a ∈ as → (∀ f : Field, f.key ≠ a.key) → Improper as
  | repeated : ¬ (as.map (·.key)).Nodup → Improper as
  | untaken {a} {f : Field} : a ∈ as → f.key = a.key → ¬ f.Takes a.value → Improper as

/-- A configuration with assignments laid over it. -/
structure Overlaid (base : Config) (as : List Assignment) (c : Config) : Prop where
  assigned : ∀ a ∈ as, ∀ f : Field, f.key = a.key → f.value c = a.value
  kept : ∀ f : Field, (∀ a ∈ as, f.key ≠ a.key) → f.value c = f.value base

variable {base c c' : Config} {f g : Field} {a : Assignment} {as : List Assignment}

/-! ## Fields -/

theorem Field.key_injective : Function.Injective Field.key := by
  intro f g h
  cases f <;> cases g <;> first | rfl | exact absurd h (by decide)

/-- A configuration is what it holds in its fields. -/
theorem Field.ext (h : ∀ f : Field, f.value c = f.value c') : c = c' := by
  have h₁ := h .commitCapacity
  have h₂ := h .commitEntryOverhead
  have h₃ := h .persistentCapacity
  have h₄ := h .transientResetCapacity
  have h₅ := h .transientDeselectCapacity
  have h₆ := h .integritySensitiveSupported
  have h₇ := h .debug
  simp only [Field.value, Value.integer.injEq, Value.boolean.injEq, Int.ofNat_inj,
    UInt32.toNat_inj] at h₁ h₂ h₃ h₄ h₅ h₆ h₇
  cases c
  cases c'
  simp_all

/-- No two configurations are the same overlay. -/
theorem Overlaid.unique (h : Overlaid base as c) (h' : Overlaid base as c') : c = c' := by
  refine Field.ext fun f => ?_
  by_cases hf : ∃ a ∈ as, f.key = a.key
  · obtain ⟨a, ha, hkey⟩ := hf
    rw [h.assigned a ha f hkey, h'.assigned a ha f hkey]
  · have hother : ∀ a ∈ as, f.key ≠ a.key := fun a ha hkey => hf ⟨a, ha, hkey⟩
    rw [h.kept f hother, h'.kept f hother]

/-! ## One assignment -/

theorem capacity?_eq_some_iff {n : Int} {v : UInt32} :
    Document.capacity? n = some v ↔ n = v.toNat := by
  have hv := v.toNat_lt
  unfold Document.capacity?
  split
  · rename_i h
    have hlt : n.toNat < 2 ^ 32 := by
      have := h.2
      simp only [UInt32.size] at this
      omega
    have hcode : (UInt32.ofNat n.toNat).toNat = n.toNat := UInt32.toNat_ofNat_of_lt' hlt
    rw [Option.some_inj, ← UInt32.toNat_inj, hcode]
    omega
  · rename_i h
    simp only [UInt32.size] at h
    constructor
    · rintro ⟨⟩
    · intro hn
      exact absurd ⟨by omega, by omega⟩ h

/-- The sizes that an integer of 32 bits can be. -/
theorem exists_capacity? {n : Int} (h₀ : 0 ≤ n) (h₁ : n ≤ 4294967295) :
    ∃ v : UInt32, n = v.toNat ∧ Document.capacity? n = some v := by
  have hlt : n.toNat < 2 ^ 32 := by omega
  have hn : n = (UInt32.ofNat n.toNat).toNat := by
    rw [UInt32.toNat_ofNat_of_lt' hlt]
    omega
  exact ⟨_, hn, capacity?_eq_some_iff.mpr hn⟩

/-- An assignment gives the field with its key its value and leaves the others as they are. -/
theorem assign?_of_takes (hkey : f.key = a.key) (h : f.Takes a.value) :
    ∃ c', c.assign? a = some c' ∧ f.value c' = a.value ∧ ∀ g, g ≠ f → g.value c' = g.value c := by
  obtain ⟨key, v⟩ := a
  obtain rfl : f.key = key := hkey
  unfold Field.Takes at h
  split at h
  · rename_i hflag
    obtain ⟨b, rfl⟩ : ∃ b, v = .boolean b := h
    cases f with
    | integritySensitiveSupported =>
      refine ⟨{ c with integritySensitiveSupported := b }, rfl, rfl, fun g hg => ?_⟩
      cases g <;> first | rfl | exact absurd rfl hg
    | debug =>
      refine ⟨{ c with debug := b }, rfl, rfl, fun g hg => ?_⟩
      cases g <;> first | rfl | exact absurd rfl hg
    | _ => cases hflag
  · rename_i hsize
    obtain ⟨n, rfl, h₀, h₁⟩ : ∃ n, v = .integer n ∧ 0 ≤ n ∧ n ≤ 4294967295 := h
    obtain ⟨w, rfl, hw⟩ := exists_capacity? h₀ h₁
    -- Each size is read the same way and put into its own field.
    have hset (put : UInt32 → Config) : (Document.capacity? w.toNat).map put = some (put w) := by
      rw [hw, Option.map_some]
    cases f with
    | commitCapacity =>
      refine ⟨_, hset fun w => { c with commitCapacity := w }, rfl, fun g hg => ?_⟩
      cases g <;> first | rfl | exact absurd rfl hg
    | commitEntryOverhead =>
      refine ⟨_, hset fun w => { c with commitEntryOverhead := w }, rfl, fun g hg => ?_⟩
      cases g <;> first | rfl | exact absurd rfl hg
    | persistentCapacity =>
      refine ⟨_, hset fun w => { c with persistentCapacity := w }, rfl, fun g hg => ?_⟩
      cases g <;> first | rfl | exact absurd rfl hg
    | transientResetCapacity =>
      refine ⟨_, hset fun w => { c with transientResetCapacity := w }, rfl, fun g hg => ?_⟩
      cases g <;> first | rfl | exact absurd rfl hg
    | transientDeselectCapacity =>
      refine ⟨_, hset fun w => { c with transientDeselectCapacity := w }, rfl, fun g hg => ?_⟩
      cases g <;> first | rfl | exact absurd rfl hg
    | _ => exact absurd rfl hsize

theorem takes_of_assign? (h : c.assign? a = some c') :
    ∃ f : Field, f.key = a.key ∧ f.Takes a.value := by
  obtain ⟨key, v⟩ := a
  have hsize : ∀ {n : Int} {g : UInt32 → Config}, (Document.capacity? n).map g = some c' →
      ∃ m : Int, Value.integer n = .integer m ∧ 0 ≤ m ∧ m ≤ 4294967295 := by
    intro n g hn
    obtain ⟨w, hw, _⟩ := Option.map_eq_some_iff.mp hn
    obtain rfl := capacity?_eq_some_iff.mp hw
    have hlt := w.toNat_lt
    exact ⟨_, rfl, by omega, by omega⟩
  unfold assign? at h
  split at h
  · rename_i hkey hv
    exact ⟨.commitCapacity, hkey.symm, by rw [hv]; exact hsize h⟩
  · rename_i hkey hv
    exact ⟨.commitEntryOverhead, hkey.symm, by rw [hv]; exact hsize h⟩
  · rename_i hkey hv
    exact ⟨.persistentCapacity, hkey.symm, by rw [hv]; exact hsize h⟩
  · rename_i hkey hv
    exact ⟨.transientResetCapacity, hkey.symm, by rw [hv]; exact hsize h⟩
  · rename_i hkey hv
    exact ⟨.transientDeselectCapacity, hkey.symm, by rw [hv]; exact hsize h⟩
  · rename_i b hkey hv
    exact ⟨.integritySensitiveSupported, hkey.symm, b, hv⟩
  · rename_i b hkey hv
    exact ⟨.debug, hkey.symm, b, hv⟩
  · cases h

/-! ## All assignments -/

/-- Assignments of different keys are laid over a configuration one after the other. -/
theorem exists_overlaid (h : Proper as) :
    ∃ c', as.foldlM assign? c = some c' ∧ Overlaid c as c' := by
  obtain ⟨hdistinct, htaken⟩ := h
  induction as generalizing c with
  | nil => exact ⟨c, rfl, by simp, fun _ _ => rfl⟩
  | cons a as ih =>
    obtain ⟨hnew, hdistinct⟩ := List.nodup_cons.mp hdistinct
    obtain ⟨⟨f, hkey, htakes⟩, htaken⟩ := List.forall_mem_cons.mp htaken
    obtain ⟨next, hassign, hvalue, hothers⟩ := assign?_of_takes (c := c) hkey htakes
    obtain ⟨c', hrest, hover⟩ := ih (c := next) hdistinct htaken
    -- The later assignments have other keys, so they leave the field of the first alone.
    have hlater : ∀ a' ∈ as, f.key ≠ a'.key := by
      intro a' ha' heq
      exact hnew (List.mem_map.mpr ⟨a', ha', by rw [← heq, hkey]⟩)
    refine ⟨c', by rw [List.foldlM_cons, hassign]; exact hrest, ?_, ?_⟩
    · intro a' ha' g hg
      rcases List.mem_cons.mp ha' with rfl | ha'
      · obtain rfl := Field.key_injective (hg.trans hkey.symm)
        rw [hover.kept g hlater, hvalue]
      · exact hover.assigned a' ha' g hg
    · intro g hg
      obtain ⟨hfirst, hmore⟩ := List.forall_mem_cons.mp hg
      have hne : g ≠ f := by
        rintro rfl
        exact hfirst hkey
      rw [hover.kept g hmore, hothers g hne]

theorem taken_of_foldlM (h : as.foldlM assign? c = some c') :
    ∀ a ∈ as, ∃ f : Field, f.key = a.key ∧ f.Takes a.value := by
  induction as generalizing c with
  | nil => simp
  | cons a as ih =>
    rw [List.foldlM_cons] at h
    obtain ⟨next, hassign, hrest⟩ := Option.bind_eq_some_iff.mp h
    exact List.forall_mem_cons.mpr ⟨takes_of_assign? hassign, ih hrest⟩

theorem overlay?_of_proper (h : Proper as) : ∃ c', c.overlay? as = some c' ∧ Overlaid c as c' := by
  obtain ⟨c', hfold, hover⟩ := exists_overlaid (c := c) h
  exact ⟨c', by rw [overlay?, if_pos h.distinct, hfold], hover⟩

theorem proper_of_overlay? (h : c.overlay? as = some c') : Proper as := by
  unfold overlay? at h
  obtain ⟨hdistinct, hfold⟩ := Option.ite_none_right_eq_some.mp h
  exact ⟨hdistinct, taken_of_foldlM hfold⟩

theorem Improper.not_proper (h : Improper as) : ¬ Proper as := by
  rintro ⟨hdistinct, htaken⟩
  cases h with
  | unknown ha hunknown =>
    obtain ⟨f, hkey, _⟩ := htaken _ ha
    exact hunknown f hkey
  | repeated hrepeated => exact hrepeated hdistinct
  | untaken ha hkey huntaken =>
    obtain ⟨g, hg, htakes⟩ := htaken _ ha
    obtain rfl := Field.key_injective (hkey.trans hg.symm)
    exact huntaken htakes

/-- Assignments that are not improper can be laid over a configuration. -/
theorem proper_or_improper (as : List Assignment) : Proper as ∨ Improper as := by
  by_cases hdistinct : (as.map (·.key)).Nodup
  · by_cases htaken : ∀ a ∈ as, ∃ f : Field, f.key = a.key ∧ f.Takes a.value
    · exact .inl ⟨hdistinct, htaken⟩
    · right
      simp only [not_forall, not_exists, not_and] at htaken
      obtain ⟨a, ha, huntaken⟩ := htaken
      by_cases hkey : ∃ f : Field, f.key = a.key
      · obtain ⟨f, hkey⟩ := hkey
        exact .untaken ha hkey (huntaken f hkey)
      · exact .unknown ha (not_exists.mp hkey)
  · exact .inr (.repeated hdistinct)

theorem overlay?_of_improper (h : Improper as) : c.overlay? as = none := by
  cases hread : c.overlay? as with
  | none => rfl
  | some c' => exact absurd (proper_of_overlay? hread) h.not_proper

/-! ## Documents -/

open Document (Written Mark Lines Opening)

variable {text : String}

theorem ofDocument_of_assignments? (h : Document.assignments? text.toList = some as) :
    ofDocument text =
      (overlay? {} as).elim (.error .unreadable) fun c => c.validate.map fun _ => c := by
  rw [ofDocument, h, Option.bind_some]
  cases overlay? {} as <;> rfl

theorem ofDocument_of_none (h : Document.assignments? text.toList = none) :
    ofDocument text = .error .unreadable := by
  rw [ofDocument, h, Option.bind_none]

/-- A document of proper assignments describes the default configuration with the fields it names
replaced, if the sizes fit together, and is otherwise refused for its sizes. A document with an
assignment of an unknown key, a repeated key or a value that its field does not take is refused as
unreadable whatever the sizes, and so is a text with a foreign line. -/
theorem ofDocument_overlays (text : String) :
    (∀ as, Written text.toList as → Proper as →
      ∃ c, Overlaid {} as c ∧ ofDocument text =
        if c.commitCapacity = 0 then .error .zeroCommitCapacity
        else if c.commitEntryOverhead < c.commitCapacity then .ok c
        else .error (.overheadExceedsCapacity c.commitEntryOverhead c.commitCapacity)) ∧
      (∀ as, Written text.toList as → Improper as → ofDocument text = .error .unreadable) ∧
        ∀ mark front as opening rest, Mark mark → Lines front as → Opening opening →
          text.toList = mark ++ (front ++ (opening ++ rest)) →
            ofDocument text = .error .unreadable := by
  refine ⟨fun as hwritten hproper => ?_, fun as hwritten himproper => ?_, ?_⟩
  · obtain ⟨c, hoverlay, hover⟩ := overlay?_of_proper (c := {}) hproper
    refine ⟨c, hover, ?_⟩
    rw [ofDocument_of_assignments? (Document.assignments?_eq_some_iff.mpr hwritten), hoverlay,
      Option.elim_some]
    simp only [validate]
    split
    · rfl
    · by_cases hlt : c.commitEntryOverhead < c.commitCapacity
      · rw [if_neg (UInt32.not_le.mpr hlt), if_pos hlt]
        rfl
      · rw [if_pos (UInt32.not_lt.mp hlt), if_neg hlt]
        rfl
  · rw [ofDocument_of_assignments? (Document.assignments?_eq_some_iff.mpr hwritten),
      overlay?_of_improper himproper, Option.elim_none]
  · intro mark front as opening rest hmark hfront hopening htext
    refine ofDocument_of_none ?_
    rw [htext]
    exact Document.assignments?_eq_none_of_opening hmark hfront hopening

/-- A document with several notations, comments and blank lines. -/
def smallDocument : String :=
  "# small\n\tcommit_capacity = 0x2_0 # bytes\r\n\n'debug'=true\n\"commit\\u005Fentry_overhead\" = +1_6"

/-- What the small document assigns. -/
def smallAssignments : List Assignment :=
  [⟨"commit_capacity", .integer 32⟩, ⟨"debug", .boolean true⟩,
    ⟨"commit_entry_overhead", .integer 16⟩]

/-- The small document describes a card, and two other documents are refused as unreadable although
their capacity is zero. -/
theorem ofDocument_overlays_small :
    (∃ c, Overlaid {} smallAssignments c ∧ ofDocument smallDocument = .ok c) ∧
      ofDocument "commit_capacity = 0\ncolour = 1" = .error .unreadable ∧
        ofDocument "commit_capacity = 0\ndebug = \"no\"\n" = .error .unreadable := by
  refine ⟨?_, ?_, ?_⟩
  · have hwritten : Written smallDocument.toList smallAssignments :=
      Document.assignments?_eq_some_iff.mp (by decide +kernel)
    have hproper : Proper smallAssignments := by
      refine ⟨by decide, ?_⟩
      simp only [smallAssignments, List.forall_mem_cons]
      exact ⟨⟨.commitCapacity, rfl, 32, rfl, by decide, by decide⟩, ⟨.debug, rfl, true, rfl⟩,
        ⟨.commitEntryOverhead, rfl, 16, rfl, by decide, by decide⟩, by simp⟩
    obtain ⟨c, hover, hread⟩ := (ofDocument_overlays smallDocument).1 _ hwritten hproper
    have hcapacity := hover.assigned _ (.head _) .commitCapacity rfl
    have hoverhead := hover.assigned _ (.tail _ (.tail _ (.head _))) .commitEntryOverhead rfl
    simp only [Field.value, Value.integer.injEq] at hcapacity hoverhead
    refine ⟨c, hover, ?_⟩
    rw [hread, if_neg, if_pos]
    · rw [UInt32.lt_iff_toNat_lt]
      omega
    · intro hzero
      rw [hzero] at hcapacity
      exact absurd hcapacity (by decide)
  · exact (ofDocument_overlays _).2.1 [⟨"commit_capacity", .integer 0⟩, ⟨"colour", .integer 1⟩]
      (Document.assignments?_eq_some_iff.mp (by decide +kernel))
      (.unknown (a := ⟨"colour", .integer 1⟩) (by simp) fun f => by cases f <;> decide)
  · have hline : Document.Line "commit_capacity = 0".toList [⟨"commit_capacity", .integer 0⟩] :=
      Document.line_of_line? (by decide)
    have hopening : Opening ([] ++ ("debug".toList ++ ([' '] ++ '=' :: ([' '] ++ ['"'])))) :=
      .value (by decide) (.bare (by decide) (List.all_eq_true.mp rfl)) (by decide) (by decide)
        (.text (.inl rfl))
    exact (ofDocument_overlays _).2.2 [] _ _ _ "no\"\n".toList .absent (.cons hline .short .nil)
      hopening (by decide)

end Config

end SmartCard
