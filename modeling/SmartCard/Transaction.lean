-- SUMMARY: The transaction manager: idle or one open transaction, with its undo log.
import SmartCard.Transaction.UndoLog

/-!
# Transactions

At most one transaction is open. An applet opens an explicit one; the card opens an implicit one
around a single atomic write when none is open. Committing forgets the undo log, rolling back hands
it over to be restored, and either leaves the card idle with an empty log.
-/

namespace SmartCard

/-- Whether a transaction is open, and who opened it. -/
inductive TransactionState where
  | idle
  | explicit
  | implicit
  deriving DecidableEq, Repr

structure Transaction where
  state : TransactionState
  log : UndoLog
  deriving DecidableEq, Repr

namespace Transaction

/-- No transaction, with the commit buffer of a configuration. -/
def idle (c : Config) : Transaction :=
  ⟨.idle, .empty c.commitCapacity c.commitEntryOverhead⟩

def isIdle (t : Transaction) : Bool := t.state == .idle

/-- The depth that an applet sees: 1 while a transaction is open. -/
def depth (t : Transaction) : UInt8 := if t.isIdle then 0 else 1

def unusedCapacity (t : Transaction) : UInt32 := t.log.unused

def maxCapacity (t : Transaction) : UInt32 := t.log.max

/-- Open an explicit transaction. Transactions do not nest. -/
def begin? (t : Transaction) : Except Fault Transaction :=
  if t.isIdle then .ok { t with state := .explicit } else .error .transactionOpen

def beginImplicit (t : Transaction) : Transaction := { t with state := .implicit }

/-- Leave whatever transaction is open, with an empty log. -/
def close (t : Transaction) : Transaction := ⟨.idle, t.log.clear⟩

/-- Keep the before-image of a write, if the commit buffer has room for it. -/
def logBefore? (t : Transaction) (entry : UndoEntry) : Except Fault Transaction :=
  if t.log.fits entry.before.length then .ok { t with log := t.log.push entry }
  else
    .error
      (.commitBufferFull (t.log.cost entry.before.length) t.log.unused t.log.max)

end Transaction

end SmartCard
