import Rfs.Meta.Types

/-!
# Meta/Schema — the legacy capnp records, and what the reader sees of them

Two levels of one message.  A **record** (`DirRecord`, `InodeRecord`, …) is what a writer
holds: plain values, block fields of any length.  A **view** (`DirView`, `InodeView`, …) is what
the capnp reader offers the code after `read_message` and `get_root`: every pointer field is a
read that may fail (`Except DecodeError _`), and `attributes` is the result of `which()`, which
fails with `NotInSchema` on a union discriminant the compiled schema lacks.

`DirRecord.serialize` is the message a writer produces, as the reader finds it.  The wire
format itself is capnp's and is not modelled: a message is the record it holds and the number of
words its segments hold.  `read_message`, with `ReaderOptions::default()` as `types.rs` calls it,
rejects a message of more words than the traversal limit — 8 Mi words, 64 MiB — before anything
is read (`readMessage`); within the limit every read of a written message succeeds and returns
the record's value, since the reader follows each pointer once and so never reads more words than
the message holds.
-/

namespace Rfs.Meta

/-! ## Records -/

/-- A block of a file record: `hash` and `key` are capnp `Data`, of any length. -/
structure BlockRecord where
  hash : List UInt8
  key : List UInt8
deriving DecidableEq, Repr

/-- The `attributes` union of an inode record. -/
inductive AttrRecord where
  | dir (key : String)
  | file (blockSize : UInt16) (blocks : List BlockRecord)
  | link (target : String)
  | special
deriving DecidableEq, Repr

/-- An entry of a directory record. -/
structure InodeRecord where
  name : String
  size : UInt64
  attributes : AttrRecord
  aclkey : String
  modificationTime : UInt32
  creationTime : UInt32
deriving DecidableEq, Repr

/-- A directory record, with its entries in order. -/
structure DirRecord where
  name : String
  parent : String
  size : UInt64
  aclkey : String
  modificationTime : UInt32
  creationTime : UInt32
  contents : List InodeRecord
deriving DecidableEq, Repr

/-- An access-control record: ids are capnp `Int64`, the mode `UInt16`; `uname` and `gname` are
kept for records written before ids were stored. -/
structure AciRecord where
  uname : Option String
  gname : Option String
  mode : UInt16
  uid : BitVec 64
  gid : BitVec 64
deriving DecidableEq, Repr

/-- A block record whose fields have the width of `[u8; 16]`. -/
def BlockRecord.WellSized (b : BlockRecord) : Prop := b.hash.length = 16 ∧ b.key.length = 16

instance : DecidablePred BlockRecord.WellSized := fun _ => inferInstanceAs (Decidable (_ ∧ _))

/-- The blocks of a `file` member; none for the other members. -/
def AttrRecord.blocks : AttrRecord → List BlockRecord
  | .file _ blocks => blocks
  | _ => []

/-- An inode record all of whose blocks are well sized. -/
def InodeRecord.WellSized (e : InodeRecord) : Prop := ∀ b ∈ e.attributes.blocks, b.WellSized

instance : DecidablePred InodeRecord.WellSized := fun _ => inferInstanceAs (Decidable (∀ b ∈ _, _))

/-! ## Views -/

/-- A block as the reader sees it. -/
structure BlockView where
  hash : Except DecodeError (List UInt8)
  key : Except DecodeError (List UInt8)

/-- The `dir` member of the union. -/
structure SubDirView where
  key : Except DecodeError String

/-- The `file` member of the union. -/
structure FileView where
  blockSize : UInt16
  blocks : Except DecodeError (List BlockView)

/-- The `link` member of the union. -/
structure LinkView where
  target : Except DecodeError String

/-- `attributes::Which` — each struct member is itself a read that may fail. -/
inductive Which where
  | dir (d : Except DecodeError SubDirView)
  | file (f : Except DecodeError FileView)
  | link (l : Except DecodeError LinkView)
  | special

/-- An inode entry as the reader sees it; `attributes` is `which()` of the union. -/
structure InodeView where
  name : Except DecodeError String
  size : UInt64
  aclkey : Except DecodeError String
  modificationTime : UInt32
  creationTime : UInt32
  attributes : Except DecodeError Which

/-- A directory as the reader sees it. -/
structure DirView where
  name : Except DecodeError String
  parent : Except DecodeError String
  size : UInt64
  aclkey : Except DecodeError String
  modificationTime : UInt32
  creationTime : UInt32
  contents : Except DecodeError (List InodeView)

/-- An access-control record as the reader sees it: `has_uname()` is whether `uname` is
`some`, and `get_uname()` the read inside. -/
structure AciView where
  uname : Option (Except DecodeError String)
  gname : Option (Except DecodeError String)
  mode : UInt16
  uid : BitVec 64
  gid : BitVec 64

/-- A message, after `read_message` and `get_root`: either may fail. -/
abbrev Message (α : Type) := Except DecodeError α

/-! ## Serialisation -/

/-- The view of a block record. -/
def BlockRecord.view (b : BlockRecord) : BlockView := ⟨.ok b.hash, .ok b.key⟩

/-- `which()` of a union written by a writer that knows the schema. -/
def AttrRecord.view : AttrRecord → Which
  | .dir key => .dir (.ok ⟨.ok key⟩)
  | .file bs blocks => .file (.ok ⟨bs, .ok (blocks.map BlockRecord.view)⟩)
  | .link target => .link (.ok ⟨.ok target⟩)
  | .special => .special

/-- The view of an inode record. -/
def InodeRecord.view (e : InodeRecord) : InodeView where
  name := .ok e.name
  size := e.size
  aclkey := .ok e.aclkey
  modificationTime := e.modificationTime
  creationTime := e.creationTime
  attributes := .ok e.attributes.view

/-- `serialize::read_message(&mut raw, ReaderOptions::default())`, then `get_root`, on a message
whose segment table counts `words` words: over the traversal limit it is rejected, and otherwise
the reader sees `root`. -/
def readMessage {α : Type} (words : Nat) (root : Message α) : Message α :=
  if words ≤ traversalLimitInWords then root else .error (messageTooLarge words)

theorem readMessage_of_le {α : Type} {words : Nat} (h : words ≤ traversalLimitInWords)
    (root : Message α) : readMessage words root = root := if_pos h

theorem readMessage_of_lt {α : Type} {words : Nat} (h : traversalLimitInWords < words)
    (root : Message α) : readMessage words root = .error (messageTooLarge words) :=
  if_neg (Nat.not_le.mpr h)

/-- **The message a writer produces from a directory record**, `words` words long, as the reader
finds it. -/
def DirRecord.serialize (r : DirRecord) (words : Nat) : Message DirView :=
  readMessage words <| .ok
    { name := .ok r.name
      parent := .ok r.parent
      size := r.size
      aclkey := .ok r.aclkey
      modificationTime := r.modificationTime
      creationTime := r.creationTime
      contents := .ok (r.contents.map InodeRecord.view) }

/-- The message a writer produces from an access-control record, `words` words long, as the
reader finds it. -/
def AciRecord.serialize (r : AciRecord) (words : Nat) : Message AciView :=
  readMessage words (.ok ⟨r.uname.map .ok, r.gname.map .ok, r.mode, r.uid, r.gid⟩)

end Rfs.Meta
