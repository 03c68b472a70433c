import ImapCache.Model.Domain

/-!
# Range reads of the object stores

`get` and `get_range` of the memory, filesystem and R2 stores. Each holds its objects under the keys
they were put under. The S3 service behind R2 is a parameter.
-/

namespace ImapCache.ObjectStores

/-- The objects of a store under their keys. -/
abbrev Objects := List (String × Bytes)

/-- What a read ends with: a panic, an error, or the bytes if the object is there. -/
abbrev Reading := Except Panic (Except Error (Option Bytes))

/-- `bytes[start..end]`. -/
def slice (bytes : Bytes) (start stop : Nat) : Except Panic Bytes :=
  if start ≤ stop ∧ stop ≤ bytes.length then .ok ((bytes.take stop).drop start)
  else .error .sliceOutOfRange

/-- `get`, which all stores have alike: the bytes must have the content address they are stored
under. -/
def get (lib : Libraries) (objects : Objects) (key : String) : Except Error (Option Bytes) :=
  match objects.lookup key with
  | none => .ok none
  | some bytes => do
      validateContentAddressedBytes lib key bytes
      pure (some bytes)

/-! ## Memory -/

def memoryGetRange (objects : Objects) (key : String) (start : Nat) (stop : Option Nat) : Reading :=
  match objects.lookup key with
  | none => .ok (.ok none)
  | some bytes =>
      if start ≥ bytes.length then .ok (.ok (some []))
      else do
        let stop := min (stop.getD bytes.length) bytes.length
        let part ← slice bytes start stop
        pure (.ok (some part))

/-! ## Filesystem -/

/-- `read_exact` from a position of a file. -/
def readExact (bytes : Bytes) (position count : Nat) : Except Error Bytes :=
  let left := bytes.drop position
  if left.length < count then .error (.io "early eof") else .ok (left.take count)

/-- A buffer that is to have less than no bytes is a panic. -/
def filesystemGetRange (objects : Objects) (key : String) (start : Nat) (stop : Option Nat) : Reading :=
  match objects.lookup key with
  | none => .ok (.ok none)
  | some bytes =>
      let length := bytes.length
      if start ≥ length then .ok (.ok (some []))
      else
        let stop := min (stop.getD length) length
        if stop < start then .error .capacityOverflow
        else .ok ((readExact bytes start (stop - start)).map some)

/-! ## R2 -/

/-- A `Range` header with one range, `bytes=first-last`; both ends are included. -/
structure ByteRange where
  first : Nat
  last : Option Nat
deriving DecidableEq, Repr

/-- `GetObject` of S3: what is read of an object in a range. -/
abbrev GetObject := Bytes → ByteRange → Except String Bytes

/-- A range is satisfied from the bytes it names that the object has; one that starts behind the object
cannot be satisfied. -/
structure GetObject.Ranged (getObject : GetObject) : Prop where
  satisfied : ∀ bytes range, range.first < bytes.length → (∀ last ∈ range.last, range.first ≤ last) →
    getObject bytes range = .ok ((bytes.take ((range.last.map (· + 1)).getD bytes.length)).drop range.first)
  unsatisfiable : ∀ bytes range, bytes.length ≤ range.first →
    ∃ message, getObject bytes range = .error message

def rangedGetObject (getObject : GetObject) (bytes : Bytes) (range : ByteRange) :
    Except Error (Option Bytes) :=
  match getObject bytes range with
  | .ok bytes => .ok (some bytes)
  | .error err => .error (.storage ("S3 ranged get_object failed: " ++ err))

def r2GetRange (getObject : GetObject) (objects : Objects) (key : String) (start : Nat)
    (stop : Option Nat) : Except Error (Option Bytes) :=
  match objects.lookup key with
  | none => .ok none
  | some bytes =>
      match stop with
      | some stop =>
          if stop > 0 ∧ stop > start then rangedGetObject getObject bytes ⟨start, some (stop - 1)⟩
          else .ok (some [])
      | none => rangedGetObject getObject bytes ⟨start, none⟩

end ImapCache.ObjectStores
