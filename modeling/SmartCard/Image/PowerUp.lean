-- SUMMARY: Powering a card up from an image: taking in its arrays and rolling its pending entries back.
import SmartCard.Image.Codec

/-!
# Powering up

A card comes up from an image with the arrays that the image lists, transient ones zeroed, and with
the entries that were pending rolled back, the newest first. The image must describe arrays of known
kinds that have the right size, bear distinct references and fit the pools.
-/

namespace SmartCard

/-- The cell that an entry of an image describes. -/
def ImageArray.cell (a : ImageArray) : Except Fault Cell :=
  match Kind.ofCode? a.kind with
  | none => .error (.unknownKind a.kind)
  | some kind =>
    match Lifetime.ofMemoryType? a.memoryType with
    | none => .error (.unknownMemoryType .image a.memoryType)
    | some lifetime =>
      let length := a.length.toNat
      let d : Descriptor := ⟨kind, length, lifetime, a.sensitive⟩
      if maxArrayLength < length then .error (.imageLengthTooLarge a.array length)
      else if lifetime.isPersistent then
        if a.data.length = d.byteLength then .ok ⟨d, a.data, a.digest⟩
        else .error (.payloadSize a.array a.data.length d.byteLength)
      else .ok (.zeroed d)

def ImageUndo.entry (u : ImageUndo) : UndoEntry := ⟨u.array, u.offset.toNat, u.before⟩

namespace Image

/-- Take the arrays of an image into a store, one after the other. -/
def adoptArrays (s : Store) : List ImageArray → Except Fault Store
  | [] => .ok s
  | a :: more =>
    match a.cell with
    | .error e => .error e
    | .ok c =>
      match s.adopt a.array c with
      | .error e => .error e
      | .ok s => adoptArrays s more

/-- The memory of a card that is powered up from an image. -/
def powerUp (c : Config) (image : Image) : Except Fault Memory :=
  if image.format = formatVersion then
    match adoptArrays (.empty c) image.arrays with
    | .error e => .error e
    | .ok s =>
      let restored := UndoLog.restore (image.pending.reverse.map ImageUndo.entry) s
      restored.result.map fun _ => ⟨restored.state, .idle c⟩
  else .error (.unknownFormat image.format)

/-- Read the byte form of an image, if it is not too large. -/
def ofBytes (bytes : List UInt8) : Except Fault Image :=
  if maxBytes < bytes.length then .error .imageTooLarge
  else
    match decode? bytes with
    | some image => .ok image
    | none => .error .imageUnreadable

end Image

end SmartCard
