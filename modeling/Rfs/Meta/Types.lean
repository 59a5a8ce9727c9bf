import Rfs.Result

/-!
# Meta/Types — the decoded metadata entries of `meta/types.rs`

What the legacy reader hands to the filesystem: an `Entry` is a `Node` (inode, name, size,
acl key, times) and an `EntryKind` (a directory with its children, a reference to a
subdirectory, a file with its blocks, a link).  A `FileBlock` holds two `[u8; 16]` fields,
modelled by `Bytes16`, a byte list that carries its length — a block of any other width
cannot be built.

Inode numbers come from `meta/inode.rs`, which is outside the sources: the entries are
generic in the inode type `ι`, and the reader takes `Inode::at` as an argument.

A call of the reader ends in `Ok`, in an error its `?` propagates (`DecodeError`), or in a
panic (`Fault.panic`): both of the latter are a `Fault`, and both abort the call.
-/

namespace Rfs.Meta

/-! ## Sixteen-byte fields -/

/-- **`[u8; 16]`** — a byte string of exactly sixteen bytes. -/
def Bytes16 := { b : List UInt8 // b.length = 16 }

instance : DecidableEq Bytes16 := inferInstanceAs (DecidableEq { b : List UInt8 // b.length = 16 })

instance : Repr Bytes16 := ⟨fun b n => reprPrec b.1 n⟩

/-- `core::array::TryFromSliceError`: a slice of the wrong length; its `Debug` is
`TryFromSliceError(())`. -/
structure TryFromSliceError where
deriving DecidableEq, Repr

/-- `<[u8; 16]>::try_from(&[u8])` — an error unless the slice is sixteen bytes long. -/
def Bytes16.tryFrom (b : List UInt8) : Except TryFromSliceError Bytes16 :=
  if h : b.length = 16 then .ok ⟨b, h⟩ else .error ⟨⟩

theorem Bytes16.tryFrom_eq_ok {b : List UInt8} (h : b.length = 16) :
    Bytes16.tryFrom b = .ok ⟨b, h⟩ := dif_pos h

theorem Bytes16.tryFrom_eq_error {b : List UInt8} (h : b.length ≠ 16) :
    Bytes16.tryFrom b = .error ⟨⟩ := dif_neg h

theorem Bytes16.length_of_tryFrom {b : List UInt8} {c : Bytes16} (h : Bytes16.tryFrom b = .ok c) :
    b.length = 16 := by
  unfold Bytes16.tryFrom at h
  split_ifs at h with hl
  exact hl

/-! ## Entries -/

/-- The attributes every entry carries. -/
structure Node (ι : Type) where
  inode : ι
  name : String
  size : UInt64
  acl : String
  modification : UInt32
  creation : UInt32
deriving DecidableEq, Repr

/-- A block of a file: where the block store keeps it, and the key it is encrypted with. -/
structure FileBlock where
  hash : Bytes16
  key : Bytes16
deriving DecidableEq, Repr

/-- A regular file: its block size and its blocks, in file order. -/
structure File where
  blockSize : UInt16
  blocks : List FileBlock
deriving DecidableEq, Repr

mutual

/-- An entry of the tree: a node and what kind of object it is. -/
inductive Entry (ι : Type) where
  | mk (node : Node ι) (kind : EntryKind ι)

/-- `EntryKind` — `Dir` holds the children read with it, `SubDir` only the key under which a
child directory is stored; `Unknown` is what the reader makes of a kind it does not handle. -/
inductive EntryKind (ι : Type) where
  | unknown
  | dir (key parent : String) (entries : List (Entry ι))
  | subDir (key : String)
  | file (f : File)
  | link (target : String)

end

/-- The node of an entry. -/
def Entry.node {ι : Type} : Entry ι → Node ι
  | .mk n _ => n

/-- The kind of an entry. -/
def Entry.kind {ι : Type} : Entry ι → EntryKind ι
  | .mk _ k => k

@[simp] theorem Entry.node_mk {ι : Type} (n : Node ι) (k : EntryKind ι) : (Entry.mk n k).node = n :=
  rfl

@[simp] theorem Entry.kind_mk {ι : Type} (n : Node ι) (k : EntryKind ι) : (Entry.mk n k).kind = k :=
  rfl

/-- `if let EntryKind::Unknown = kind`. -/
def EntryKind.isUnknown {ι : Type} : EntryKind ι → Bool
  | .unknown => true
  | _ => false

/-- An access-control item: owner, group and mode, each a `u32`. -/
structure Aci where
  user : UInt32
  group : UInt32
  mode : UInt32
deriving DecidableEq, Repr

/-! ## How a call ends -/

/-- The errors the reader's `?` propagates: a capnp read error, by the `Debug` rendering of its
`capnp::Error`, or a union discriminant the compiled schema does not define (capnp's
`NotInSchema`). -/
inductive DecodeError where
  | capnp (debug : String)
  | notInSchema (discriminant : UInt16)
deriving DecidableEq, Repr

/-- The `Debug` rendering of an error, as `unwrap` prints it. -/
def DecodeError.debug : DecodeError → String
  | .capnp d => d
  | .notInSchema n => "NotInSchema(" ++ toString n ++ ")"

/-- `ReaderOptions::default().traversal_limit_in_words`: 8 Mi words, that is 64 MiB. -/
def traversalLimitInWords : Nat := 8 * 1024 * 1024

/-- The error `read_message` returns for a message of `words` words over the traversal limit:
capnp's `Error::failed`, whose `Debug` shows its description and its kind. -/
def messageTooLarge (words : Nat) : DecodeError :=
  .capnp ("Error \x7b description: \"Message has " ++ toString words ++ " words, which is too large. " ++
    "To increase the limit on the receiving end, see capnp::message::ReaderOptions.\", kind: Failed \x7d")

/-- A call that does not return `Ok`: it returned an error, or it panicked. -/
inductive Fault where
  | error (e : DecodeError)
  | panic (msg : String)
deriving DecidableEq, Repr

/-- `?` on a capnp result, inside a function that can also panic. -/
def read {α : Type} : Except DecodeError α → Except Fault α
  | .ok a => .ok a
  | .error e => .error (.error e)

/-- `Result::expect` on a slice conversion: the panic message is `msg`, then `: ` and the
error's `Debug`. -/
def expect {α : Type} (msg : String) : Except TryFromSliceError α → Except Fault α
  | .ok a => .ok a
  | .error _ => .error (.panic (msg ++ ": TryFromSliceError(())"))

/-- `Result::unwrap` on a capnp result: an error panics with its `Debug` rendering. -/
def unwrap {α : Type} : Except DecodeError α → Except Fault α
  | .ok a => .ok a
  | .error e => .error (.panic ("called `Result::unwrap()` on an `Err` value: " ++ e.debug))

@[simp] theorem read_ok {α : Type} (a : α) : read (.ok a : Except DecodeError α) = .ok a := rfl

@[simp] theorem read_error {α : Type} (e : DecodeError) :
    read (.error e : Except DecodeError α) = .error (.error e) := rfl

theorem read_eq_ok {α : Type} {x : Except DecodeError α} {a : α} : read x = .ok a ↔ x = .ok a := by
  cases x <;> simp [read]

@[simp] theorem expect_ok {α : Type} (msg : String) (a : α) :
    expect msg (.ok a : Except TryFromSliceError α) = .ok a := rfl

@[simp] theorem expect_error {α : Type} (msg : String) (e : TryFromSliceError) :
    expect msg (.error e : Except TryFromSliceError α) = .error (.panic (msg ++ ": TryFromSliceError(())")) :=
  rfl

theorem expect_eq_ok {α : Type} {msg : String} {x : Except TryFromSliceError α} {a : α} :
    expect msg x = .ok a ↔ x = .ok a := by
  cases x <;> simp [expect]

end Rfs.Meta
