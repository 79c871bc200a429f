-- SUMMARY: Configuration of a card: pool and commit capacities, optional features, and when they fit together.

/-!
# Configuration

The sizes of a card's memories and of its commit buffer. A configuration is usable when the commit
buffer can hold at least one byte of payload beside the overhead of its entry (`Config.validate`).
-/

namespace SmartCard

/-- Sizes in bytes, and the optional features of a card. -/
structure Config where
  commitCapacity : UInt32 := 1024
  /-- Bytes of the commit buffer taken by an undo entry beside its payload. -/
  commitEntryOverhead : UInt32 := 8
  persistentCapacity : UInt32 := 32 * 1024
  transientResetCapacity : UInt32 := 2048
  transientDeselectCapacity : UInt32 := 2048
  integritySensitiveSupported : Bool := true
  debug : Bool := false
  deriving DecidableEq, Repr, Inhabited

/-- Why a configuration is refused. -/
inductive Config.Error where
  | unreadable
  | zeroCommitCapacity
  | overheadExceedsCapacity (overhead capacity : UInt32)
  deriving DecidableEq, Repr

def Config.Error.message : Config.Error → String
  | .unreadable => "config parse error"
  | .zeroCommitCapacity => "commit_capacity must be greater than zero"
  | .overheadExceedsCapacity overhead capacity =>
    s!"commit_entry_overhead ({overhead}) leaves no room for payload within commit_capacity ({capacity})"

/-- An undo entry must fit the commit buffer together with at least one byte of payload. -/
def Config.validate (c : Config) : Except Config.Error Unit :=
  if c.commitCapacity = 0 then .error .zeroCommitCapacity
  else if c.commitCapacity ≤ c.commitEntryOverhead then
    .error (.overheadExceedsCapacity c.commitEntryOverhead c.commitCapacity)
  else .ok ()

def Config.withCommitCapacity (c : Config) (capacity : UInt32) : Config :=
  { c with commitCapacity := capacity }

def Config.withDebug (c : Config) (debug : Bool) : Config :=
  { c with debug := debug }

end SmartCard
