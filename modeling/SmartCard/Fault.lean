-- SUMMARY: Faults by cause, with the class, origin, reason code and message under which an applet sees them.
import SmartCard.ArrayRef
import SmartCard.Config
import SmartCard.Kind
import SmartCard.Lifetime

/-!
# Faults

A `Fault` records why an operation failed, with the values that explain it. What an applet sees is
derived: `Fault.errorClass` is the class of the exception, `Fault.origin` the part of the card that
raised it, `Fault.reason` the reason whose code the applet branches on, and `Fault.message` the
text.
-/

namespace SmartCard

/-! ## Classes, origins and reasons -/

/-- The class of exception that an applet observes. -/
inductive FaultClass where
  | system
  | transaction
  | util
  | bio
  | external
  | security
  | arrayIndexOutOfBounds
  | nullPointer
  | powerLoss
  deriving DecidableEq, Repr

def FaultClass.label : FaultClass → String
  | .system => "system"
  | .transaction => "transaction"
  | .util => "util"
  | .bio => "bio"
  | .external => "external"
  | .security => "security"
  | .arrayIndexOutOfBounds => "array_index_out_of_bounds"
  | .nullPointer => "null_pointer"
  | .powerLoss => "power_loss"

/-- The part of the card that raised a fault. -/
inductive Origin where
  | store
  | transaction
  | array
  | sensitive
  | bio
  | image
  | config
  deriving DecidableEq, Repr

def Origin.label : Origin → String
  | .store => "store"
  | .transaction => "transaction"
  | .array => "array"
  | .sensitive => "sensitive"
  | .bio => "bio"
  | .image => "image"
  | .config => "config"

/-- The reasons of the system class. -/
inductive SystemReason where
  | illegalValue
  | noTransientSpace
  | illegalTransient
  | illegalAid
  | noResource
  | illegalUse
  deriving DecidableEq, Repr

/-- The reasons of the transaction class. -/
inductive TransactionReason where
  | inProgress
  | notInProgress
  | bufferFull
  | internalFailure
  | illegalUse
  deriving DecidableEq, Repr

/-- The reasons of the utility class. -/
inductive UtilReason where
  | illegalValue
  | typeMismatched
  deriving DecidableEq, Repr

/-- The reasons of the biometric class. -/
inductive BioReason where
  | illegalValue
  | invalidData
  | noSuchTemplate
  | noTemplatesEnrolled
  | illegalUse
  deriving DecidableEq, Repr

/-- The reasons a host may give for a failure of its own. -/
inductive ExternalReason where
  | noSuchSubsystem
  | invalidParam
  | internalError
  deriving DecidableEq, Repr

/-- A reason, within its class. -/
inductive Reason where
  | system (r : SystemReason)
  | transaction (r : TransactionReason)
  | util (r : UtilReason)
  | bio (r : BioReason)
  | external (r : ExternalReason)
  deriving DecidableEq, Repr

def Reason.errorClass : Reason → FaultClass
  | .system _ => .system
  | .transaction _ => .transaction
  | .util _ => .util
  | .bio _ => .bio
  | .external _ => .external

/-- The code of a reason, counted from 1 within its class. Applets branch on it, so it never
changes. -/
def Reason.code : Reason → UInt16
  | .system .illegalValue => 1
  | .system .noTransientSpace => 2
  | .system .illegalTransient => 3
  | .system .illegalAid => 4
  | .system .noResource => 5
  | .system .illegalUse => 6
  | .transaction .inProgress => 1
  | .transaction .notInProgress => 2
  | .transaction .bufferFull => 3
  | .transaction .internalFailure => 4
  | .transaction .illegalUse => 5
  | .util .illegalValue => 1
  | .util .typeMismatched => 2
  | .bio .illegalValue => 1
  | .bio .invalidData => 2
  | .bio .noSuchTemplate => 3
  | .bio .noTemplatesEnrolled => 4
  | .bio .illegalUse => 5
  | .external .noSuchSubsystem => 1
  | .external .invalidParam => 2
  | .external .internalError => 3

def Reason.text : Reason → String
  | .system .illegalValue => "illegal value"
  | .system .noTransientSpace => "no transient space"
  | .system .illegalTransient => "illegal transient request"
  | .system .illegalAid => "illegal AID"
  | .system .noResource => "no resource"
  | .system .illegalUse => "illegal use"
  | .transaction .inProgress => "transaction in progress"
  | .transaction .notInProgress => "transaction not in progress"
  | .transaction .bufferFull => "commit buffer full"
  | .transaction .internalFailure => "internal transaction failure"
  | .transaction .illegalUse => "illegal use"
  | .util .illegalValue => "illegal value"
  | .util .typeMismatched => "type mismatched"
  | .bio .illegalValue => "illegal value"
  | .bio .invalidData => "invalid data"
  | .bio .noSuchTemplate => "no such bio template"
  | .bio .noTemplatesEnrolled => "no templates enrolled"
  | .bio .illegalUse => "illegal use"
  | .external .noSuchSubsystem => "no such subsystem"
  | .external .invalidParam => "invalid parameter"
  | .external .internalError => "internal error"

/-! ## Causes -/

/-- A numeric argument of a range operation. -/
inductive Argument where
  | sourceOffset
  | sourceLength
  | destinationOffset
  | fillOffset
  | fillLength
  | valueOffset
  | searchOffset
  | length
  deriving DecidableEq, Repr

def Argument.text : Argument → String
  | .sourceOffset => "source offset"
  | .sourceLength => "source length"
  | .destinationOffset => "destination offset"
  | .fillOffset => "fill offset"
  | .fillLength => "fill length"
  | .valueOffset => "value offset"
  | .searchOffset => "search offset"
  | .length => "length"

/-- The part a range of elements plays in a range operation. -/
inductive RangeRole where
  | source
  | destination
  | fill
  | value
  | search
  deriving DecidableEq, Repr

def RangeRole.text : RangeRole → String
  | .source => "source"
  | .destination => "destination"
  | .fill => "fill"
  | .value => "value"
  | .search => "search"

/-- Length of the longest array that a short can address. -/
def maxArrayLength : Nat := 32767

/-- Why an operation failed. -/
inductive Fault where
  /- Looking up, allocating and writing arrays. -/
  | nullReference (origin : Origin)
  | unknownReference (origin : Origin) (array : ArrayRef)
  | lengthTooLarge (length : Nat)
  | negativeLength (origin : Origin) (length : Int16)
  | unknownEvent (event : UInt8)
  | unknownMemoryType (origin : Origin) (code : UInt8)
  | kindNotTransient (kind : Kind)
  | referencesExhausted
  | referenceInUse (array : ArrayRef)
  | poolExhausted (lifetime : Lifetime) (requested available : UInt32)
  | bytesOutside (offset count limit : Nat)
  | byteOutside (byte : Nat) (array : ArrayRef)
  | elementsOutside (index : Int16) (count : Nat) (array : ArrayRef) (length : Nat)
  | tooManyElements
  | tear (written total : Nat) (array : ArrayRef)
  /- Transactions. -/
  | transactionOpen
  | commitWithoutTransaction
  | abortWithoutTransaction
  | commitBufferFull (cost : Nat) (unused max : UInt32)
  /- Range operations. -/
  | nullOperand (position : Nat)
  | notNumeric (array : ArrayRef) (kind : Kind)
  | negativeArgument (argument : Argument) (value : Int16)
  | rangeOutside (role : RangeRole) (offset count : Nat) (array : ArrayRef) (length : Nat)
  | kindsDiffer (left : ArrayRef) (leftKind : Kind) (right : ArrayRef) (rightKind : Kind)
  | partialElement (count : Nat) (source destination : Kind)
  | needleKind (value target : Kind)
  | nonAtomicWrite (array : ArrayRef)
  | indexTooLarge (index : Nat)
  /- Packed values. -/
  | notByteArray (array : ArrayRef) (kind : Kind)
  | windowOutside (width : Nat) (offset : Int16) (array : ArrayRef) (length : Nat)
  /- Integrity-sensitive arrays. -/
  | sensitivityUnsupported
  | kindNotSensitive (kind : Kind)
  | notSensitive (array : ArrayRef)
  | digestMismatch (array : ArrayRef)
  /- Images. -/
  | imageTooLarge
  | imageUnreadable
  | unknownFormat (format : UInt16)
  | unknownKind (code : UInt8)
  | imageLengthTooLarge (array : ArrayRef) (length : Nat)
  | payloadSize (array : ArrayRef) (actual expected : Nat)
  | badImageReference (array : ArrayRef)
  | imagePoolExhausted (array : ArrayRef)
  /- Templates. -/
  | zeroTryLimit
  | notEnrolled
  | noOpenSession
  | invalidScore (score : Int16)
  | updateBeforeInit
  | finishBeforeInit
  | emptyReference
  | publicOffsetOutside (offset size : Nat)
  | unknownTemplate (position : Nat)
  /- Configuration, and failures that a host reports. -/
  | config (error : Config.Error)
  | host (errorClass : FaultClass) (origin : Origin) (message : String)
  | external (reason : ExternalReason) (message : String)
  deriving DecidableEq, Repr

/-- What an applet can branch on: a reason, or a bare class. -/
inductive Category where
  | reasoned (r : Reason)
  | bare (c : FaultClass)
  deriving DecidableEq, Repr

def Fault.category : Fault → Category
  | nullReference _ => .bare .nullPointer
  | unknownReference _ _ => .reasoned (.util .illegalValue)
  | lengthTooLarge _ => .reasoned (.system .illegalValue)
  | negativeLength _ _ => .reasoned (.system .illegalValue)
  | unknownEvent _ => .reasoned (.system .illegalValue)
  | unknownMemoryType _ _ => .reasoned (.system .illegalValue)
  | kindNotTransient _ => .reasoned (.system .illegalValue)
  | referencesExhausted => .reasoned (.system .noResource)
  | referenceInUse _ => .reasoned (.system .noResource)
  | poolExhausted lifetime _ _ =>
    .reasoned (.system (if lifetime.isPersistent then .noResource else .noTransientSpace))
  | bytesOutside _ _ _ => .bare .arrayIndexOutOfBounds
  | byteOutside _ _ => .bare .arrayIndexOutOfBounds
  | elementsOutside _ _ _ _ => .bare .arrayIndexOutOfBounds
  | tooManyElements => .bare .arrayIndexOutOfBounds
  | tear _ _ _ => .bare .powerLoss
  | transactionOpen => .reasoned (.transaction .inProgress)
  | commitWithoutTransaction => .reasoned (.transaction .notInProgress)
  | abortWithoutTransaction => .reasoned (.transaction .notInProgress)
  | commitBufferFull _ _ _ => .reasoned (.transaction .bufferFull)
  | nullOperand _ => .bare .nullPointer
  | notNumeric _ _ => .reasoned (.util .illegalValue)
  | negativeArgument _ _ => .bare .arrayIndexOutOfBounds
  | rangeOutside _ _ _ _ _ => .bare .arrayIndexOutOfBounds
  | kindsDiffer _ _ _ _ => .reasoned (.util .typeMismatched)
  | partialElement _ _ _ => .reasoned (.util .typeMismatched)
  | needleKind _ _ => .reasoned (.util .typeMismatched)
  | nonAtomicWrite _ => .bare .security
  | indexTooLarge _ => .bare .arrayIndexOutOfBounds
  | notByteArray _ _ => .reasoned (.util .typeMismatched)
  | windowOutside _ _ _ _ => .bare .arrayIndexOutOfBounds
  | sensitivityUnsupported => .reasoned (.system .illegalUse)
  | kindNotSensitive _ => .reasoned (.system .illegalValue)
  | notSensitive _ => .reasoned (.util .illegalValue)
  | digestMismatch _ => .bare .security
  | imageTooLarge => .bare .system
  | imageUnreadable => .bare .system
  | unknownFormat _ => .reasoned (.system .illegalValue)
  | unknownKind _ => .reasoned (.system .illegalValue)
  | imageLengthTooLarge _ _ => .reasoned (.system .illegalValue)
  | payloadSize _ _ _ => .reasoned (.system .illegalValue)
  | badImageReference _ => .reasoned (.system .illegalValue)
  | imagePoolExhausted _ => .reasoned (.system .noResource)
  | zeroTryLimit => .reasoned (.bio .illegalValue)
  | notEnrolled => .reasoned (.bio .noTemplatesEnrolled)
  | noOpenSession => .reasoned (.bio .illegalUse)
  | invalidScore _ => .reasoned (.bio .invalidData)
  | updateBeforeInit => .reasoned (.bio .illegalUse)
  | finishBeforeInit => .reasoned (.bio .illegalUse)
  | emptyReference => .reasoned (.bio .invalidData)
  | publicOffsetOutside _ _ => .reasoned (.bio .illegalValue)
  | unknownTemplate _ => .reasoned (.bio .noSuchTemplate)
  | config _ => .bare .system
  | host errorClass _ _ => .bare errorClass
  | external reason _ => .reasoned (.external reason)

def Fault.errorClass (f : Fault) : FaultClass :=
  match f.category with
  | .reasoned r => r.errorClass
  | .bare c => c

def Fault.reason (f : Fault) : Option Reason :=
  match f.category with
  | .reasoned r => some r
  | .bare _ => none

/-- The code of the reason, or 0 for a fault that has none. -/
def Fault.code (f : Fault) : UInt16 :=
  match f.reason with
  | some r => r.code
  | none => 0

def Fault.isPowerLoss (f : Fault) : Bool := f.errorClass == .powerLoss

/-- Whether the commit buffer had no room for an undo entry. -/
def Fault.isBufferFull (f : Fault) : Bool :=
  f.reason == some (.transaction .bufferFull)

def Fault.origin : Fault → Origin
  | nullReference origin | unknownReference origin _ => origin
  | negativeLength origin _ | unknownMemoryType origin _ => origin
  | lengthTooLarge _ | unknownEvent _ | kindNotTransient _ => .store
  | referencesExhausted | referenceInUse _ | poolExhausted _ _ _ => .store
  | bytesOutside _ _ _ | byteOutside _ _ | elementsOutside _ _ _ _ | tooManyElements => .store
  | tear _ _ _ => .store
  | transactionOpen | commitWithoutTransaction | abortWithoutTransaction => .transaction
  | commitBufferFull _ _ _ => .transaction
  | nullOperand _ | notNumeric _ _ | negativeArgument _ _ | rangeOutside _ _ _ _ _ => .array
  | kindsDiffer _ _ _ _ | partialElement _ _ _ | needleKind _ _ => .array
  | nonAtomicWrite _ | indexTooLarge _ | notByteArray _ _ | windowOutside _ _ _ _ => .array
  | sensitivityUnsupported | kindNotSensitive _ | notSensitive _ | digestMismatch _ => .sensitive
  | imageTooLarge | imageUnreadable | unknownFormat _ | unknownKind _ => .image
  | imageLengthTooLarge _ _ | payloadSize _ _ _ | badImageReference _ | imagePoolExhausted _ =>
    .image
  | zeroTryLimit | notEnrolled | noOpenSession | invalidScore _ => .bio
  | updateBeforeInit | finishBeforeInit | emptyReference | publicOffsetOutside _ _ => .bio
  | unknownTemplate _ => .bio
  | config _ => .config
  | host _ origin _ => origin
  | external _ _ => .store

def Fault.message : Fault → String
  | nullReference _ => "null array reference"
  | unknownReference _ array => s!"{array} is not an array reference"
  | lengthTooLarge length => s!"array length {length} exceeds {maxArrayLength}"
  | negativeLength _ length => s!"negative array length {length}"
  | unknownEvent event => s!"unknown transient event {event}"
  | unknownMemoryType _ code => s!"unknown memory type {code}"
  | kindNotTransient kind => s!"{kind} arrays cannot be transient"
  | referencesExhausted => "array reference space exhausted"
  | referenceInUse array => s!"array reference {array} is already in use"
  | poolExhausted lifetime requested available =>
    s!"{lifetime} pool exhausted: requested {requested} bytes, {available} available"
  | bytesOutside offset count limit =>
    s!"byte range {offset}+{count} outside array of {limit} bytes"
  | byteOutside byte array => s!"byte {byte} outside {array}"
  | elementsOutside index count array length =>
    s!"index {index} (+Some({count})) outside {array} of length {length}"
  | tooManyElements => "element list exceeds short range"
  | tear written total array => s!"card tear after {written} of {total} bytes written to {array}"
  | transactionOpen => "transaction already in progress"
  | commitWithoutTransaction => "commit without a transaction in progress"
  | abortWithoutTransaction => "abort without a transaction in progress"
  | commitBufferFull cost unused max =>
    s!"commit capacity exceeded: entry needs {cost} bytes, {unused} of {max} unused"
  | nullOperand position => s!"null array reference (operand {position})"
  | notNumeric array kind => s!"{array} holds {kind} elements; byte, short or int required"
  | negativeArgument argument value => s!"negative {argument.text}: {value}"
  | rangeOutside role offset count array length =>
    s!"{role.text} range {offset}+{count} outside {array} of length {length}"
  | kindsDiffer left leftKind right rightKind =>
    s!"element kinds differ: {left} is {leftKind}, {right} is {rightKind}"
  | partialElement count source destination =>
    s!"{count} {source} elements do not fill a whole number of {destination} elements"
  | needleKind value target => s!"search value in {value} array cannot encode a {target} element"
  | nonAtomicWrite array => s!"non-atomic write to persistent integrity-sensitive array {array}"
  | indexTooLarge index => s!"index {index} exceeds short range"
  | notByteArray array kind => s!"{array} holds {kind} elements; byte array required"
  | windowOutside width offset array length =>
    s!"{width}-byte value at {offset} outside {array} of length {length}"
  | sensitivityUnsupported => "integrity-sensitive arrays are not supported by this card"
  | kindNotSensitive kind => s!"{kind} arrays cannot be integrity-sensitive"
  | notSensitive array => s!"{array} is not integrity-sensitive"
  | digestMismatch array => s!"integrity check failed for {array}"
  | imageTooLarge => "deserialize error: payload exceeds maximum allowed size"
  | imageUnreadable => "deserialize error"
  | unknownFormat format => s!"unsupported image format {format}"
  | unknownKind code => s!"unknown element kind {code}"
  | imageLengthTooLarge array length => s!"{array} length {length} exceeds {maxArrayLength}"
  | payloadSize array actual expected =>
    s!"{array} payload is {actual} bytes, descriptor needs {expected}"
  | badImageReference array => s!"duplicate or null array reference {array} in image"
  | imagePoolExhausted array => s!"image array {array} does not fit the configured pool"
  | zeroTryLimit => "try limit must be at least 1"
  | notEnrolled => "no reference template enrolled"
  | noOpenSession => "match_data called without an open match session"
  | invalidScore score => s!"matcher returned invalid score {score}"
  | updateBeforeInit => "update called before init"
  | finishBeforeInit => "do_final called before init"
  | emptyReference => "enrolment produced an empty reference template"
  | publicOffsetOutside offset size => s!"public data offset {offset} beyond {size} bytes"
  | unknownTemplate position => s!"no bio template {position}"
  | config error => error.message
  | host _ _ message => message
  | external _ message => message

/-- The message under the names of its origin and class. -/
def Fault.display (f : Fault) : String :=
  s!"{f.origin.label}:{f.errorClass.label}: {f.message}"

end SmartCard
