import Rfs.Meta.Schema
import Mathlib.Data.List.Forall2

/-!
# Meta/Dir — `Dir::from` and `Dir::entries`, the legacy directory reader

`Dir::from` reads a directory message into an `Entry` of kind `Dir`; its children come from
`Dir::entries`, a loop over the record's contents with two accumulators — the list of entries
built so far, and the counter `x` that numbers the children.  The counter is bumped *before*
the entry is read, and an entry of a kind the reader does not handle is skipped after the
bump, so child `j` of the record is always inode `ino.at(j)`, skipped siblings included.

Each block of a file is converted to `[u8; 16]` with `expect`: a block field of any other
length panics instead of returning an error.  `Dir.from_ok_iff` says exactly when the reader
returns `Ok`: when every field it reads can be read — those of a skipped `special` member
included — and every block is sixteen bytes wide.  A member whose union discriminant the schema
does not define is not skipped: `which()?` rejects the whole directory
(`Dir.entries_notInSchema`).  A written record reads back whole in a message within capnp's
traversal limit (`Dir.from_serialize`); a larger one is rejected by `read_message`.
-/

namespace Rfs.Meta

variable {ι : Type} (inodeAt : ι → Nat → ι)

/-! ## The loops, as the code runs them -/

/-- One block of the block loop: `get_hash()?`, its conversion to `[u8; 16]`, then the key. -/
def fileBlock (b : BlockView) : Except Fault FileBlock := do
  let hash ← expect "block hash is 16 bytes" (Bytes16.tryFrom (← read b.hash))
  let key ← expect "block encryption key is 16 bytes" (Bytes16.tryFrom (← read b.key))
  pure ⟨hash, key⟩

/-- The block loop: `for block in blocks { result.push(..) }`. -/
def fileBlocks (result : List FileBlock) : List BlockView → Except Fault (List FileBlock)
  | [] => pure result
  | b :: bs => do fileBlocks (result ++ [← fileBlock b]) bs

/-- The `match attrs.which()?` of the entries loop: a `dir` member becomes a `SubDir`, and the
`_` arm — the `special` member — makes `Unknown`. -/
def entryKind (attrs : Except DecodeError Which) : Except Fault (EntryKind ι) := do
  match ← read attrs with
  | .dir d => pure (.subDir (← read (← read d).key))
  | .file f =>
    let f ← read f
    match f.blocks with
    | .ok blocks => pure (.file ⟨f.blockSize, ← fileBlocks [] blocks⟩)
    | .error err => throw (.error err)
  | .link l => pure (.link (← read (← read l).target))
  | .special => pure .unknown

/-- The body of the entries loop for the entry numbered `x`: its node, with inode `ino.at(x)`,
and its kind. -/
def Dir.entry (ino : ι) (x : Nat) (entry : InodeView) : Except Fault (Entry ι) := do
  let node : Node ι :=
    { inode := inodeAt ino x
      name := ← read entry.name
      size := entry.size
      acl := ← read entry.aclkey
      modification := entry.modificationTime
      creation := entry.creationTime }
  pure (.mk node (← entryKind entry.attributes))

/-- **The entries loop** — `x += 1` comes first, then the entry is read, and an `Unknown` kind
is skipped with `continue`. -/
def Dir.entriesLoop (ino : ι) (entries : List (Entry ι)) (x : Nat) :
    List InodeView → Except Fault (List (Entry ι))
  | [] => pure entries
  | entry :: rest => do
    let e ← Dir.entry inodeAt ino (x + 1) entry
    if e.kind.isUnknown then Dir.entriesLoop ino entries (x + 1) rest
    else Dir.entriesLoop ino (entries ++ [e]) (x + 1) rest

/-- `Dir::entries` — the loop over `dir.get_contents()?`, from no entries and `x = 0`. -/
def Dir.entries (ino : ι) (dir : DirView) : Except Fault (List (Entry ι)) := do
  Dir.entriesLoop inodeAt ino [] 0 (← read dir.contents)

/-- **`Dir::from`** — the directory's own node takes the record's name, size and times, with the
empty acl; its kind carries the given key, the record's parent and the decoded children. -/
def Dir.from (key : String) (ino : ι) (data : Message DirView) : Except Fault (Entry ι) := do
  let root ← read data
  let name ← read root.name
  let parent ← read root.parent
  let entries ← Dir.entries inodeAt ino root
  pure (.mk { inode := ino, name, size := root.size, acl := ""
              modification := root.modificationTime, creation := root.creationTime }
    (.dir key parent entries))

end Rfs.Meta

namespace Rfs.Meta

variable {ι : Type} (inodeAt : ι → Nat → ι)

/-! ## What each step can do -/

/-- An entry `Dir::entries` keeps: a `dir`, `file` or `link` member. -/
def Which.isHandled : Which → Bool
  | .special => false
  | _ => true

/-- The entry's `which()` succeeded on a member the loop keeps. -/
def InodeView.isHandled (e : InodeView) : Bool :=
  match e.attributes with
  | .ok w => w.isHandled
  | .error _ => false

/-! A member is readable when every field the loop reads of it reads, `which()` included — so its
discriminant is one the schema defines — and its blocks are sixteen bytes wide. -/

/-- A block whose two fields read and are sixteen bytes wide. -/
def BlockView.Readable (b : BlockView) : Prop :=
  ∃ hash key, b.hash = .ok hash ∧ b.key = .ok key ∧ hash.length = 16 ∧ key.length = 16

/-- A union member whose data the loop can read. -/
def Which.Readable : Which → Prop
  | .dir d => ∃ s key, d = .ok s ∧ s.key = .ok key
  | .file f => ∃ v blocks, f = .ok v ∧ v.blocks = .ok blocks ∧ ∀ b ∈ blocks, b.Readable
  | .link l => ∃ s target, l = .ok s ∧ s.target = .ok target
  | .special => True

/-- An entry whose name, acl key and kind the loop can read. -/
def InodeView.Readable (e : InodeView) : Prop :=
  (∃ name, e.name = .ok name) ∧ (∃ acl, e.aclkey = .ok acl) ∧ ∃ w, e.attributes = .ok w ∧ w.Readable

/-- A block read without fault was readable. -/
theorem fileBlock_eq_ok_readable {b : BlockView} {fb : FileBlock} (h : fileBlock b = .ok fb) :
    b.Readable := by
  obtain ⟨hash, hh, h⟩ := bind_eq_ok.mp h
  obtain ⟨_, hh16, h⟩ := bind_eq_ok.mp h
  obtain ⟨key, hk, h⟩ := bind_eq_ok.mp h
  obtain ⟨_, hk16, -⟩ := bind_eq_ok.mp h
  exact ⟨hash, key, read_eq_ok.mp hh, read_eq_ok.mp hk,
    Bytes16.length_of_tryFrom (expect_eq_ok.mp hh16), Bytes16.length_of_tryFrom (expect_eq_ok.mp hk16)⟩

/-- A block loop that returns `Ok` read every block. -/
theorem fileBlocks_eq_ok_readable : ∀ (result : List FileBlock) (bs : List BlockView)
    (fbs : List FileBlock), fileBlocks result bs = .ok fbs → ∀ b ∈ bs, b.Readable
  | _, [], _, _ => nofun
  | _, _ :: bs, fbs, h => by
    obtain ⟨_, hfb, h⟩ := bind_eq_ok.mp h
    exact List.forall_mem_cons.mpr ⟨fileBlock_eq_ok_readable hfb, fileBlocks_eq_ok_readable _ bs fbs h⟩

/-- **The kind step can only skip `special`**: a kind read without fault came from a `which()`
that succeeded on a member whose data was read, and it is `Unknown` exactly for the `special`
member. -/
theorem entryKind_eq_ok {attrs : Except DecodeError Which} {k : EntryKind ι}
    (h : entryKind attrs = .ok k) : ∃ w, attrs = .ok w ∧ w.Readable ∧ k.isUnknown = !w.isHandled := by
  rcases attrs with e | w
  · simp [entryKind] at h
  · refine ⟨w, rfl, ?_⟩
    cases w with
    | dir d =>
      simp only [entryKind, read_ok, ok_bind] at h
      obtain ⟨s, hs, h⟩ := bind_eq_ok.mp h
      obtain ⟨key, hk, h⟩ := bind_eq_ok.mp h
      cases h
      exact ⟨⟨s, key, read_eq_ok.mp hs, read_eq_ok.mp hk⟩, rfl⟩
    | file f =>
      simp only [entryKind, read_ok, ok_bind] at h
      obtain ⟨v, hv, h⟩ := bind_eq_ok.mp h
      rcases hb : v.blocks with e | blocks <;> simp only [hb] at h
      · cases h
      · obtain ⟨fbs, hf, h⟩ := bind_eq_ok.mp h
        cases h
        exact ⟨⟨v, blocks, read_eq_ok.mp hv, hb, fileBlocks_eq_ok_readable [] blocks fbs hf⟩, rfl⟩
    | link l =>
      simp only [entryKind, read_ok, ok_bind] at h
      obtain ⟨s, hs, h⟩ := bind_eq_ok.mp h
      obtain ⟨t, ht, h⟩ := bind_eq_ok.mp h
      cases h
      exact ⟨⟨s, t, read_eq_ok.mp hs, read_eq_ok.mp ht⟩, rfl⟩
    | special => cases h; exact ⟨trivial, rfl⟩

/-- **One entry read without fault**: both text fields were read, and the node has the inode
`ino.at(x)` of the position it was read at. -/
theorem Dir.entry_eq_ok {ino : ι} {x : Nat} {e : InodeView} {en : Entry ι}
    (h : Dir.entry inodeAt ino x e = .ok en) :
    ∃ name acl k, e.name = .ok name ∧ e.aclkey = .ok acl ∧ entryKind e.attributes = .ok k ∧
      en = .mk ⟨inodeAt ino x, name, e.size, acl, e.modificationTime, e.creationTime⟩ k := by
  obtain ⟨name, hn, h⟩ := bind_eq_ok.mp h
  obtain ⟨acl, ha, h⟩ := bind_eq_ok.mp h
  obtain ⟨k, hk, h⟩ := bind_eq_ok.mp h
  exact ⟨name, acl, k, read_eq_ok.mp hn, read_eq_ok.mp ha, hk, (Except.ok.inj h).symm⟩

theorem Dir.entry_inode {ino : ι} {x : Nat} {e : InodeView} {en : Entry ι}
    (h : Dir.entry inodeAt ino x e = .ok en) : en.node.inode = inodeAt ino x := by
  obtain ⟨_, _, _, -, -, -, rfl⟩ := Dir.entry_eq_ok inodeAt h
  rfl

theorem Dir.entry_isUnknown {ino : ι} {x : Nat} {e : InodeView} {en : Entry ι}
    (h : Dir.entry inodeAt ino x e = .ok en) : en.kind.isUnknown = !e.isHandled := by
  obtain ⟨_, _, k, -, -, hk, rfl⟩ := Dir.entry_eq_ok inodeAt h
  obtain ⟨w, hw, -, hu⟩ := entryKind_eq_ok hk
  simp [InodeView.isHandled, hw, hu]

/-! ## The entries loop, over every run

The loop invariant: what the loop returns is the accumulator followed by the entries built from
the kept members of the rest, each read at its position in the whole record. -/

/-- **The run lemma**: a loop that returns `Ok` returns its accumulator followed by one entry per
kept member, built at that member's own position. -/
theorem Dir.entriesLoop_eq_ok {ino : ι} : ∀ (entries : List (Entry ι)) (x : Nat)
    (es : List InodeView) (list : List (Entry ι)),
    Dir.entriesLoop inodeAt ino entries x es = .ok list →
    ∃ tail, list = entries ++ tail ∧
      List.Forall₂ (fun en p => Dir.entry inodeAt ino p.1 p.2 = .ok en) tail
        ((es.enumFrom (x + 1)).filter (·.2.isHandled))
  | entries, x, [], list, h => ⟨[], by simpa [Dir.entriesLoop] using h.symm, by simp⟩
  | entries, x, e :: es, list, h => by
    obtain ⟨en, hen, hloop⟩ := bind_eq_ok.mp h
    rw [Dir.entry_isUnknown inodeAt hen] at hloop
    by_cases hh : e.isHandled
    · simp only [hh, Bool.not_true, Bool.false_eq_true, if_false] at hloop
      obtain ⟨tail, rfl, hf⟩ := Dir.entriesLoop_eq_ok _ _ es list hloop
      refine ⟨en :: tail, by simp, ?_⟩
      simp only [List.enumFrom_cons, List.filter_cons, hh, if_true]
      exact .cons hen hf
    · simp only [hh, Bool.not_false, if_true] at hloop
      obtain ⟨tail, rfl, hf⟩ := Dir.entriesLoop_eq_ok entries (x + 1) es list hloop
      exact ⟨tail, rfl, by simpa [List.filter_cons, hh] using hf⟩

/-- **Child numbering is by raw position.**  When `Dir::entries` returns `Ok`, its entries are, in
order, one per member of kind `dir`, `file` or `link`, each the loop body run at the member's
1-based position among *all* the members — skipped ones counted — so its inode is `ino.at(j)`;
the positions kept are strictly increasing. -/
theorem Dir.entries_numbering {ino : ι} {root : DirView} {list : List (Entry ι)}
    (h : Dir.entries inodeAt ino root = .ok list) :
    ∃ cs, root.contents = .ok cs ∧
      List.Forall₂ (fun en p => Dir.entry inodeAt ino p.1 p.2 = .ok en ∧ en.node.inode = inodeAt ino p.1)
        list ((cs.enumFrom 1).filter (·.2.isHandled)) ∧
      (((cs.enumFrom 1).filter (·.2.isHandled)).map Prod.fst).Pairwise (· < ·) := by
  obtain ⟨cs, hc, h⟩ := bind_eq_ok.mp h
  obtain ⟨tail, rfl, hf⟩ := Dir.entriesLoop_eq_ok inodeAt [] 0 cs list h
  refine ⟨cs, read_eq_ok.mp hc, hf.imp fun _ _ hen => ⟨hen, Dir.entry_inode inodeAt hen⟩, ?_⟩
  have hsub := (List.filter_sublist (cs.enumFrom 1) (p := (·.2.isHandled))).map Prod.fst
  rw [List.enumFrom_map_fst] at hsub
  exact (List.pairwise_lt_range' 1 cs.length).sublist hsub

/-- A directory whose members are a `special` and then a `link`. -/
def specialThenLink : DirView :=
  ⟨.ok "d", .ok "p", 0, .ok "", 0, 0,
    .ok [InodeRecord.view ⟨"s", 0, .special, "", 0, 0⟩, InodeRecord.view ⟨"l", 0, .link "t", "", 0, 0⟩]⟩

/-- The link, kept alone, is child 2 — inode `ino.at(2)`, the skipped `special` counted. -/
theorem Dir.entries_numbering_special_link :
    Dir.entries (ι := Nat) Nat.add 1 specialThenLink = .ok [.mk ⟨3, "l", 0, "", 0, 0⟩ (.link "t")] ∧
    ∃ cs, specialThenLink.contents = .ok cs ∧
      List.Forall₂ (fun en p => Dir.entry Nat.add 1 p.1 p.2 = .ok en ∧ en.node.inode = Nat.add 1 p.1)
        [.mk ⟨3, "l", 0, "", 0, 0⟩ (.link "t")] ((cs.enumFrom 1).filter (·.2.isHandled)) ∧
      (((cs.enumFrom 1).filter (·.2.isHandled)).map Prod.fst).Pairwise (· < ·) :=
  ⟨rfl, Dir.entries_numbering Nat.add (by exact rfl)⟩

/-! ## Entries that can be read -/

theorem fileBlock_readable {b : BlockView} (h : b.Readable) : ∃ fb, fileBlock b = .ok fb := by
  obtain ⟨hash, key, hh, hk, lh, lk⟩ := h
  exact ⟨⟨⟨hash, lh⟩, ⟨key, lk⟩⟩, by
    simp [fileBlock, hh, hk, Bytes16.tryFrom_eq_ok lh, Bytes16.tryFrom_eq_ok lk]⟩

theorem fileBlocks_readable : ∀ (result : List FileBlock) (bs : List BlockView),
    (∀ b ∈ bs, b.Readable) → ∃ fbs, fileBlocks result bs = .ok fbs
  | result, [], _ => ⟨result, rfl⟩
  | result, b :: bs, h => by
    obtain ⟨fb, hfb⟩ := fileBlock_readable (h b (.head _))
    obtain ⟨fbs, hfbs⟩ := fileBlocks_readable (result ++ [fb]) bs fun b' hb => h b' (.tail _ hb)
    exact ⟨fbs, by simp [fileBlocks, hfb, hfbs]⟩

theorem entryKind_readable {w : Which} (h : w.Readable) :
    ∃ k : EntryKind ι, entryKind (.ok w) = .ok k := by
  cases w with
  | dir d =>
    obtain ⟨s, key, rfl, hk⟩ := h
    exact ⟨.subDir key, by simp [entryKind, hk]⟩
  | file f =>
    obtain ⟨v, blocks, rfl, hb, hr⟩ := h
    obtain ⟨fbs, hf⟩ := fileBlocks_readable [] blocks hr
    exact ⟨.file ⟨v.blockSize, fbs⟩, by simp [entryKind, hb, hf]⟩
  | link l =>
    obtain ⟨s, t, rfl, ht⟩ := h
    exact ⟨.link t, by simp [entryKind, ht]⟩
  | special => exact ⟨_, rfl⟩

theorem Dir.entry_readable {e : InodeView} (h : e.Readable) (ino : ι) (x : Nat) :
    ∃ en, Dir.entry inodeAt ino x e = .ok en := by
  obtain ⟨⟨name, hn⟩, ⟨acl, ha⟩, w, hw, hr⟩ := h
  obtain ⟨k, hk⟩ := entryKind_readable (ι := ι) hr
  exact ⟨.mk ⟨inodeAt ino x, name, e.size, acl, e.modificationTime, e.creationTime⟩ k, by
    simp [Dir.entry, hn, ha, hw, hk]⟩

theorem Dir.entriesLoop_readable (ino : ι) : ∀ (entries : List (Entry ι)) (x : Nat)
    (es : List InodeView), (∀ e ∈ es, e.Readable) →
    ∃ list, Dir.entriesLoop inodeAt ino entries x es = .ok list
  | entries, _, [], _ => ⟨entries, rfl⟩
  | entries, x, e :: es, h => by
    obtain ⟨en, hen⟩ := Dir.entry_readable inodeAt (h e (.head _)) ino (x + 1)
    have hes : ∀ e' ∈ es, e'.Readable := fun e' he => h e' (.tail _ he)
    cases hu : en.kind.isUnknown
    · obtain ⟨l, hl⟩ := Dir.entriesLoop_readable ino (entries ++ [en]) (x + 1) es hes
      exact ⟨l, by simp [Dir.entriesLoop, hen, hu, hl]⟩
    · obtain ⟨l, hl⟩ := Dir.entriesLoop_readable ino entries (x + 1) es hes
      exact ⟨l, by simp [Dir.entriesLoop, hen, hu, hl]⟩

/-! ## Every member is read

The converse of the section above: a loop that returns `Ok` has read every field of every member,
so whether `Dir::from` returns `Ok` depends on readability alone — of a `special` member too,
whose name and acl key are read before its kind is skipped. -/

theorem Dir.entry_eq_ok_readable {ino : ι} {x : Nat} {e : InodeView} {en : Entry ι}
    (h : Dir.entry inodeAt ino x e = .ok en) : e.Readable := by
  obtain ⟨name, acl, k, hn, ha, hk, -⟩ := Dir.entry_eq_ok inodeAt h
  obtain ⟨w, hw, hr, -⟩ := entryKind_eq_ok hk
  exact ⟨⟨name, hn⟩, ⟨acl, ha⟩, w, hw, hr⟩

theorem Dir.entriesLoop_eq_ok_readable {ino : ι} : ∀ (entries : List (Entry ι)) (x : Nat)
    (es : List InodeView) (list : List (Entry ι)),
    Dir.entriesLoop inodeAt ino entries x es = .ok list → ∀ e ∈ es, e.Readable
  | _, _, [], _, _, e, he => absurd he (List.not_mem_nil e)
  | _, _, _ :: es, list, h, e, he => by
    obtain ⟨_, hen, hloop⟩ := bind_eq_ok.mp h
    refine List.forall_mem_cons.mpr ⟨Dir.entry_eq_ok_readable inodeAt hen, ?_⟩ e he
    split at hloop <;> exact Dir.entriesLoop_eq_ok_readable _ _ es list hloop

/-- **`Dir::entries` returns `Ok` exactly when every member can be read.** -/
theorem Dir.entries_ok_iff {ino : ι} {root : DirView} :
    (∃ list, Dir.entries inodeAt ino root = .ok list) ↔
      ∃ cs, root.contents = .ok cs ∧ ∀ e ∈ cs, e.Readable := by
  constructor
  · rintro ⟨list, h⟩
    obtain ⟨cs, hc, h⟩ := bind_eq_ok.mp h
    exact ⟨cs, read_eq_ok.mp hc, Dir.entriesLoop_eq_ok_readable inodeAt [] 0 cs list h⟩
  · rintro ⟨cs, hc, hr⟩
    obtain ⟨list, h⟩ := Dir.entriesLoop_readable inodeAt ino [] 0 cs hr
    exact ⟨list, by simpa [Dir.entries, hc] using h⟩

/-- **`Dir::from` returns `Ok` exactly when everything it reads can be read**: the message, the
directory's name and parent, its contents, and every member — each field the loop reads of it,
its blocks sixteen bytes wide.  On any other message it returns `Err` or panics. -/
theorem Dir.from_ok_iff (key : String) (ino : ι) (data : Message DirView) :
    (∃ en, Dir.from inodeAt key ino data = .ok en) ↔
      ∃ root, data = .ok root ∧ (∃ name, root.name = .ok name) ∧
        (∃ parent, root.parent = .ok parent) ∧ ∃ cs, root.contents = .ok cs ∧ ∀ e ∈ cs, e.Readable := by
  constructor
  · rintro ⟨en, h⟩
    obtain ⟨root, hr, h⟩ := bind_eq_ok.mp h
    obtain ⟨name, hn, h⟩ := bind_eq_ok.mp h
    obtain ⟨parent, hp, h⟩ := bind_eq_ok.mp h
    obtain ⟨list, hl, -⟩ := bind_eq_ok.mp h
    exact ⟨root, read_eq_ok.mp hr, ⟨name, read_eq_ok.mp hn⟩, ⟨parent, read_eq_ok.mp hp⟩,
      (Dir.entries_ok_iff inodeAt).mp ⟨list, hl⟩⟩
  · rintro ⟨root, rfl, ⟨name, hn⟩, ⟨parent, hp⟩, hc⟩
    obtain ⟨list, hl⟩ := (@Dir.entries_ok_iff _ inodeAt ino root).mpr hc
    exact ⟨_, by simp only [Dir.from, read_ok, hn, hp, hl, ok_bind, pure_eq_ok]; rfl⟩

/-! ## A written record read back

The writer's direction, to state what reading keeps: `Entry.record` is the inode record an entry
was read from.  Reading a serialized record and writing each entry back gives the record's
members — every attribute kept, byte for byte — and the directory's own node keeps everything
but its acl key, which `Dir::from` sets to the empty string. -/

/-- The block record a file block was read from. -/
def FileBlock.record (b : FileBlock) : BlockRecord := ⟨b.hash.1, b.key.1⟩

/-- The union member an entry kind was read from; none for `Unknown` and `Dir`. -/
def EntryKind.attributes : EntryKind ι → Option AttrRecord
  | .subDir key => some (.dir key)
  | .file f => some (.file f.blockSize (f.blocks.map FileBlock.record))
  | .link target => some (.link target)
  | _ => none

/-- The inode record an entry was read from. -/
def Entry.record (e : Entry ι) : Option InodeRecord :=
  e.kind.attributes.map fun a =>
    ⟨e.node.name, e.node.size, a, e.node.acl, e.node.modification, e.node.creation⟩

theorem fileBlock_view {r : BlockRecord} (h : r.WellSized) :
    fileBlock r.view = .ok ⟨⟨r.hash, h.1⟩, ⟨r.key, h.2⟩⟩ := by
  simp [fileBlock, BlockRecord.view, Bytes16.tryFrom_eq_ok h.1, Bytes16.tryFrom_eq_ok h.2]

theorem fileBlocks_view : ∀ (result : List FileBlock) (rs : List BlockRecord),
    (∀ r ∈ rs, r.WellSized) →
    ∃ fbs, fileBlocks result (rs.map BlockRecord.view) = .ok (result ++ fbs) ∧
      fbs.map FileBlock.record = rs
  | result, [], _ => ⟨[], by simp [fileBlocks]⟩
  | result, r :: rs, h => by
    have hr := h r (.head _)
    obtain ⟨fbs, hfbs, hrec⟩ :=
      fileBlocks_view (result ++ [⟨⟨r.hash, hr.1⟩, ⟨r.key, hr.2⟩⟩]) rs fun r' h' => h r' (.tail _ h')
    exact ⟨⟨⟨r.hash, hr.1⟩, ⟨r.key, hr.2⟩⟩ :: fbs, by simp [fileBlocks, fileBlock_view hr, hfbs],
      by simp [hrec, FileBlock.record]⟩

/-- A member other than `special`, with well-sized blocks, reads back as itself. -/
theorem entryKind_view {a : AttrRecord} (hs : a ≠ .special) (hw : ∀ b ∈ a.blocks, b.WellSized) :
    ∃ k : EntryKind ι, entryKind (.ok a.view) = .ok k ∧ k.attributes = some a := by
  cases a with
  | dir key => exact ⟨.subDir key, rfl, rfl⟩
  | file bs blocks =>
    obtain ⟨fbs, h, hrec⟩ := fileBlocks_view [] blocks hw
    exact ⟨.file ⟨bs, fbs⟩, by simp [entryKind, AttrRecord.view, h],
      by simp [EntryKind.attributes, hrec]⟩
  | link t => exact ⟨.link t, rfl, rfl⟩
  | special => exact absurd rfl hs

theorem Dir.entriesLoop_view (ino : ι) : ∀ (entries : List (Entry ι)) (x : Nat)
    (cs : List InodeRecord), (∀ e ∈ cs, e.attributes ≠ .special) → (∀ e ∈ cs, e.WellSized) →
    ∃ es, Dir.entriesLoop inodeAt ino entries x (cs.map InodeRecord.view) = .ok (entries ++ es) ∧
      es.map Entry.record = cs.map some ∧
      es.map (·.node.inode) = (List.range' (x + 1) cs.length).map (inodeAt ino)
  | entries, x, [], _, _ => ⟨[], by simp [Dir.entriesLoop]⟩
  | entries, x, e :: cs, hs, hw => by
    obtain ⟨k, hk, hka⟩ := entryKind_view (ι := ι) (hs e (.head _)) (hw e (.head _))
    have hu : k.isUnknown = false := by cases k <;> simp_all [EntryKind.attributes, EntryKind.isUnknown]
    let en : Entry ι := .mk ⟨inodeAt ino (x + 1), e.name, e.size, e.aclkey, e.modificationTime,
      e.creationTime⟩ k
    obtain ⟨es, hes, hrec, hino⟩ := Dir.entriesLoop_view ino (entries ++ [en]) (x + 1) cs
      (fun e' h => hs e' (.tail _ h)) (fun e' h => hw e' (.tail _ h))
    refine ⟨en :: es, ?_, by simp [en, hrec, Entry.record, hka], by simp [en, hino, List.range'_succ]⟩
    simp [en, Dir.entriesLoop, Dir.entry, InodeRecord.view, hk, hu, hes]

/-- Within the traversal limit, `Dir::from` on a written record is the entry loop over the
record's members, under the directory's own node. -/
theorem Dir.from_serialize_of_le (key : String) (ino : ι) (r : DirRecord) {words : Nat}
    (hsize : words ≤ traversalLimitInWords) :
    Dir.from inodeAt key ino (r.serialize words) =
      Dir.entriesLoop inodeAt ino [] 0 (r.contents.map InodeRecord.view) >>= fun entries =>
        pure (.mk ⟨ino, r.name, r.size, "", r.modificationTime, r.creationTime⟩
          (.dir key r.parent entries)) := by
  simp [Dir.from, Dir.entries, DirRecord.serialize, readMessage_of_le hsize]

/-- **Decoding a written directory keeps what the record stores** — but the directory's acl.
For a record whose members are all `dir`, `file` or `link`, with sixteen-byte block fields, in a
message within the traversal limit, `Dir::from` returns `Ok`: the directory node has the record's
name, size and times and the empty acl; its kind has the given key and the record's parent; its
children, written back, are the record's members in order, and child `j` is inode `ino.at(j)`. -/
theorem Dir.from_serialize (key : String) (ino : ι) (r : DirRecord) (words : Nat)
    (hsize : words ≤ traversalLimitInWords)
    (hs : ∀ e ∈ r.contents, e.attributes ≠ .special) (hw : ∀ e ∈ r.contents, e.WellSized) :
    ∃ entries, Dir.from inodeAt key ino (r.serialize words) =
        .ok (.mk ⟨ino, r.name, r.size, "", r.modificationTime, r.creationTime⟩
          (.dir key r.parent entries)) ∧
      entries.map Entry.record = r.contents.map some ∧
      entries.map (·.node.inode) = (List.range' 1 r.contents.length).map (inodeAt ino) := by
  obtain ⟨es, h, hrec, hino⟩ := Dir.entriesLoop_view inodeAt ino [] 0 r.contents hs hw
  exact ⟨es, by rw [Dir.from_serialize_of_le inodeAt key ino r hsize, h]; rfl, hrec, hino⟩

/-- A two-member record, a file with one block and a link, in a message of 64 words, read
back. -/
theorem Dir.from_serialize_file_link :
    64 ≤ traversalLimitInWords ∧
    (∀ e ∈ [(⟨"f", 5000, .file 4096 [⟨List.replicate 16 1, List.replicate 16 2⟩], "a", 7, 8⟩ :
        InodeRecord), ⟨"l", 0, .link "/t", "a", 7, 8⟩], e.attributes ≠ .special) ∧
    (∀ e ∈ [(⟨"f", 5000, .file 4096 [⟨List.replicate 16 1, List.replicate 16 2⟩], "a", 7, 8⟩ :
        InodeRecord), ⟨"l", 0, .link "/t", "a", 7, 8⟩], e.WellSized) ∧
    ∃ entries, Dir.from (ι := Nat) Nat.add "k" 1 (DirRecord.serialize ⟨"d", "p", 0, "acl", 5, 6,
        [⟨"f", 5000, .file 4096 [⟨List.replicate 16 1, List.replicate 16 2⟩], "a", 7, 8⟩,
          ⟨"l", 0, .link "/t", "a", 7, 8⟩]⟩ 64) =
        .ok (.mk ⟨1, "d", 0, "", 5, 6⟩ (.dir "k" "p" entries)) ∧
      entries.map Entry.record =
        [some ⟨"f", 5000, .file 4096 [⟨List.replicate 16 1, List.replicate 16 2⟩], "a", 7, 8⟩,
          some ⟨"l", 0, .link "/t", "a", 7, 8⟩] ∧
      entries.map (·.node.inode) = (List.range' 1 2).map (Nat.add 1) :=
  ⟨by decide, by decide, by decide, Dir.from_serialize Nat.add "k" 1 _ 64 (by decide) (by decide) (by decide)⟩

/-! ## How the reader ends on a written record

Within the traversal limit every read of a written message succeeds, so the only way `Dir::from`
can fail on one is the `expect` of the block loop: it returns `Ok` when every block is sixteen
bytes wide, and panics otherwise.  Over the limit `read_message` rejects the message, and
`Dir::from` returns that `Err` before it reads anything. -/

theorem InodeRecord.view_readable {e : InodeRecord} (h : e.WellSized) : e.view.Readable := by
  refine ⟨⟨_, rfl⟩, ⟨_, rfl⟩, _, rfl, ?_⟩
  cases ha : e.attributes with
  | file bs blocks =>
    refine ⟨_, _, rfl, rfl, ?_⟩
    simp only [List.mem_map, forall_exists_index, and_imp, forall_apply_eq_imp_iff₂]
    intro b hb
    have hw := h b (by simp [ha, AttrRecord.blocks, hb])
    exact ⟨_, _, rfl, rfl, hw.1, hw.2⟩
  | dir key => exact ⟨_, _, rfl, rfl⟩
  | link t => exact ⟨_, _, rfl, rfl⟩
  | special => trivial

theorem fileBlock_view_panic {r : BlockRecord} (h : ¬ r.WellSized) :
    ∃ msg, fileBlock r.view = .error (.panic msg) := by
  by_cases h1 : r.hash.length = 16
  · have h2 : r.key.length ≠ 16 := fun h2 => h ⟨h1, h2⟩
    exact ⟨"block encryption key is 16 bytes: TryFromSliceError(())", by
      simp [fileBlock, BlockRecord.view, Bytes16.tryFrom_eq_ok h1, Bytes16.tryFrom_eq_error h2]⟩
  · exact ⟨"block hash is 16 bytes: TryFromSliceError(())", by
      simp [fileBlock, BlockRecord.view, Bytes16.tryFrom_eq_error h1]⟩

theorem fileBlocks_view_panic : ∀ (result : List FileBlock) (rs : List BlockRecord),
    (∃ r ∈ rs, ¬ r.WellSized) → ∃ msg, fileBlocks result (rs.map BlockRecord.view) = .error (.panic msg)
  | _, [], h => by simp at h
  | result, r :: rs, h => by
    by_cases hr : r.WellSized
    · obtain ⟨msg, hm⟩ := fileBlocks_view_panic (result ++ [⟨⟨r.hash, hr.1⟩, ⟨r.key, hr.2⟩⟩]) rs
        (by simpa [hr] using h)
      exact ⟨msg, by simp [fileBlocks, fileBlock_view hr, hm]⟩
    · obtain ⟨msg, hm⟩ := fileBlock_view_panic hr
      exact ⟨msg, by simp [fileBlocks, hm]⟩

theorem Dir.entriesLoop_view_panic (ino : ι) : ∀ (entries : List (Entry ι)) (x : Nat)
    (cs : List InodeRecord), (∃ e ∈ cs, ¬ e.WellSized) →
    ∃ msg, Dir.entriesLoop inodeAt ino entries x (cs.map InodeRecord.view) = .error (.panic msg)
  | _, _, [], h => by simp at h
  | entries, x, e :: cs, h => by
    by_cases he : e.WellSized
    · obtain ⟨en, hen⟩ := Dir.entry_readable inodeAt (InodeRecord.view_readable he) ino (x + 1)
      have hcs : ∃ e ∈ cs, ¬ e.WellSized := by simpa [he] using h
      cases hu : en.kind.isUnknown
      · obtain ⟨msg, hm⟩ := Dir.entriesLoop_view_panic ino (entries ++ [en]) (x + 1) cs hcs
        exact ⟨msg, by simp [Dir.entriesLoop, hen, hu, hm]⟩
      · obtain ⟨msg, hm⟩ := Dir.entriesLoop_view_panic ino entries (x + 1) cs hcs
        exact ⟨msg, by simp [Dir.entriesLoop, hen, hu, hm]⟩
    · obtain ⟨b, hb, hbw⟩ : ∃ b ∈ e.attributes.blocks, ¬ b.WellSized := by
        simpa [InodeRecord.WellSized] using he
      cases ha : e.attributes with
      | file bs blocks =>
        obtain ⟨msg, hm⟩ := fileBlocks_view_panic [] blocks ⟨b, by simpa [ha, AttrRecord.blocks] using hb, hbw⟩
        exact ⟨msg, by simp [Dir.entriesLoop, Dir.entry, InodeRecord.view, ha, AttrRecord.view,
          entryKind, hm]⟩
      | _ => simp [ha, AttrRecord.blocks] at hb

/-- **How `Dir::from` ends on a written record**: within the traversal limit it returns `Ok` when
every block of every file member is sixteen bytes wide and panics when one is not, never `Err`;
over the limit it returns the `Err` of `read_message`, whatever the record. -/
theorem Dir.from_serialize_ok_or_panic (key : String) (ino : ι) (r : DirRecord) (words : Nat) :
    (words ≤ traversalLimitInWords → (∀ e ∈ r.contents, e.WellSized) →
      ∃ en, Dir.from inodeAt key ino (r.serialize words) = .ok en) ∧
    (words ≤ traversalLimitInWords → (∃ e ∈ r.contents, ¬ e.WellSized) →
      ∃ msg, Dir.from inodeAt key ino (r.serialize words) = .error (.panic msg)) ∧
    (traversalLimitInWords < words →
      Dir.from inodeAt key ino (r.serialize words) = .error (.error (messageTooLarge words))) := by
  refine ⟨fun hsize h => ?_, fun hsize h => ?_, fun hsize => ?_⟩
  · obtain ⟨list, hl⟩ := Dir.entriesLoop_readable inodeAt ino [] 0 (r.contents.map InodeRecord.view)
      (List.forall_mem_map.2 fun e he => InodeRecord.view_readable (h e he))
    exact ⟨_, by rw [Dir.from_serialize_of_le inodeAt key ino r hsize, hl]; rfl⟩
  · obtain ⟨msg, hm⟩ := Dir.entriesLoop_view_panic inodeAt ino [] 0 r.contents h
    exact ⟨msg, by rw [Dir.from_serialize_of_le inodeAt key ino r hsize, hm]; rfl⟩
  · rw [DirRecord.serialize, readMessage_of_lt hsize]
    rfl

/-- A file member whose block hash is fifteen bytes long, in a message of 64 words: the panicking
case at work. -/
theorem Dir.from_serialize_short_block :
    (∃ e ∈ [(⟨"f", 15, .file 4096 [⟨List.replicate 15 0, List.replicate 16 0⟩], "", 0, 0⟩ : InodeRecord)],
        ¬ e.WellSized) ∧
      ∃ msg, Dir.from (ι := Nat) Nat.add "k" 1 (DirRecord.serialize ⟨"d", "p", 0, "", 0, 0,
        [⟨"f", 15, .file 4096 [⟨List.replicate 15 0, List.replicate 16 0⟩], "", 0, 0⟩]⟩ 64) =
          .error (.panic msg) :=
  ⟨⟨_, .head _, by decide⟩,
    (Dir.from_serialize_ok_or_panic Nat.add "k" 1 _ 64).2.1 (by decide) ⟨_, .head _, by decide⟩⟩

/-- The directory's own acl key is not read: acl key `"acl"` decodes to the empty acl. -/
theorem Dir.from_drops_dir_acl :
    Dir.from (ι := Nat) Nat.add "k" 1 (DirRecord.serialize ⟨"d", "p", 0, "acl", 0, 0, []⟩ 64) =
      .ok (.mk ⟨1, "d", 0, "", 0, 0⟩ (.dir "k" "p" [])) := rfl

/-- **A member of a kind the schema does not define rejects the whole directory**: its `which()?`
returns `NotInSchema` before the `_ => EntryKind::Unknown` arm could skip it, so `Dir::entries`
never returns `Ok` for a directory that holds such a member, wherever it stands. -/
theorem Dir.entries_notInSchema {ino : ι} {root : DirView} {cs : List InodeView}
    (hc : root.contents = .ok cs) {e : InodeView} (he : e ∈ cs) {d : UInt16}
    (hd : e.attributes = .error (.notInSchema d)) (list : List (Entry ι)) :
    Dir.entries inodeAt ino root ≠ .ok list := fun h => by
  obtain ⟨cs', hc', hr⟩ := (Dir.entries_ok_iff inodeAt).mp ⟨list, h⟩
  obtain ⟨-, -, w, hw, -⟩ := hr e (Except.ok.inj (hc'.symm.trans hc) ▸ he)
  cases hw.symm.trans hd

/-- A directory whose one member has union discriminant `4`, which the schema lacks: `Dir::entries`
returns `NotInSchema` instead of skipping it. -/
theorem Dir.entries_rejects_undefined_kind :
    Dir.entries (ι := Nat) Nat.add 1 ⟨.ok "d", .ok "p", 0, .ok "", 0, 0,
        .ok [⟨.ok "x", 0, .ok "", 0, 0, .error (.notInSchema 4)⟩]⟩ =
      .error (.error (.notInSchema 4)) ∧
    ∀ list, Dir.entries (ι := Nat) Nat.add 1 ⟨.ok "d", .ok "p", 0, .ok "", 0, 0,
        .ok [⟨.ok "x", 0, .ok "", 0, 0, .error (.notInSchema 4)⟩]⟩ ≠ .ok list :=
  ⟨rfl, Dir.entries_notInSchema Nat.add rfl (.head _) rfl⟩

/-- A file entry whose block hash is fifteen bytes long makes `Dir::from` panic. -/
theorem Dir.from_short_hash_panics :
    Dir.from (ι := Nat) Nat.add "k" 1 (DirRecord.serialize ⟨"d", "p", 0, "", 0, 0,
        [⟨"f", 15, .file 4096 [⟨List.replicate 15 0, List.replicate 16 0⟩], "", 0, 0⟩]⟩ 64) =
      .error (.panic "block hash is 16 bytes: TryFromSliceError(())") := rfl

end Rfs.Meta
