import Rfs.Meta.Schema

/-!
# Meta/Aci — `Aci::new`, the access-control reader and its compatibility rule

A persisted id is a capnp `Int64`; records written before ids were stored hold `-1` and a
name instead.  `Aci::new` resolves such an id through the host's user (or group) database, and
falls back to `1000` when there is no name or the database does not answer with an id.  The
same block of code runs for the uid and for the gid (`compatId`).

The result is cast with `as u32`, which keeps the low 32 bits: an id outside `[0, 2^32)` is
not rejected but wrapped (`Aci.new_user_wraps`).  `compatId_eq_ok` and `Aci.new_compat` state
the whole rule for every record and every database.
-/

namespace Rfs.Meta

/-- The host's databases as `User::from_name` and `Group::from_name` answer them: the id of the
named user or group, `none` when there is none, or an errno.  Every name gets an answer, as in
nix 0.26 and later, where a name holding a NUL byte answers `None`; earlier versions panic on
one. -/
structure HostDb where
  userUid : String → Except Nat (Option UInt32)
  groupGid : String → Except Nat (Option UInt32)

/-- The compatibility block of `Aci::new`, for either id: an id of `-1` is resolved by name, the
name read with `unwrap`, and the looked-up id widened with `as i64`. -/
def compatId (lookup : String → Except Nat (Option UInt32)) (id : BitVec 64)
    (name : Option (Except DecodeError String)) : Except Fault (BitVec 64) :=
  if id = -1 then
    match name with
    | some n => do
      let n ← unwrap n
      pure <| match lookup n with
        | .ok (some u) => BitVec.ofNat 64 u.toNat
        | _ => 1000
    | none => pure 1000
  else pure id

/-- **`Aci::new`** — the ids resolved, then each cast `as u32`; the mode widened from `u16`. -/
def Aci.new (db : HostDb) (data : Message AciView) : Except Fault Aci := do
  let root ← read data
  let uid ← compatId db.userUid root.uid root.uname
  let gid ← compatId db.groupGid root.gid root.gname
  pure ⟨UInt32.ofNat uid.toNat, UInt32.ofNat gid.toNat, root.mode.toUInt32⟩

/-- `as u32` on an `i64` keeps its value modulo `2^32`. -/
theorem toNat_ofNat_toNat (x : BitVec 64) :
    ((UInt32.ofNat x.toNat).toNat : Int) = x.toInt % 4294967296 := by
  have h : (UInt32.ofNat x.toNat).toNat = x.toNat % 4294967296 := BitVec.toNat_ofNat _ _
  rw [h, BitVec.toInt_eq_toNat_cond]
  split <;> omega

/-- A `u32` widened `as i64` and cast back `as u32` is itself. -/
theorem ofNat_toNat_widen (u : UInt32) : UInt32.ofNat (BitVec.ofNat 64 u.toNat).toNat = u := by
  have : u.toNat < 2 ^ 64 := by have := u.toNat_lt_size; simp [UInt32.size] at this; omega
  rw [BitVec.toNat_ofNat, Nat.mod_eq_of_lt this]
  exact UInt32.eq_of_toBitVec_eq (by simp [UInt32.ofNat, UInt32.toNat])

/-! ## The rule, for every record and every database -/

/-- **The compatibility rule** for one id: `r` is what the persisted `id`, with its optional
name, resolves to through `lookup` — the id itself modulo `2^32` unless it is `-1`; then the
looked-up id when the name is present and found, and `1000` in every other case. -/
def CompatRule (lookup : String → Except Nat (Option UInt32)) (id : BitVec 64)
    (name : Option (Except DecodeError String)) (r : UInt32) : Prop :=
  (id ≠ -1 → (r.toNat : Int) = id.toInt % 4294967296) ∧
  (id = -1 → name = none → r = 1000) ∧
  (id = -1 → ∀ n, name = some (.ok n) → ∀ u, lookup n = .ok (some u) → r = u) ∧
  (id = -1 → ∀ n, name = some (.ok n) → (∀ u, lookup n ≠ .ok (some u)) → r = 1000)

/-- **`compatId` follows the rule** — and returns, unless the id is `-1` and its name is present
but cannot be read. -/
theorem compatId_eq_ok (lookup : String → Except Nat (Option UInt32)) (id : BitVec 64)
    (name : Option (Except DecodeError String)) (hn : id = -1 → ∀ e, name ≠ some (.error e)) :
    ∃ r, compatId lookup id name = .ok r ∧ CompatRule lookup id name (UInt32.ofNat r.toNat) := by
  by_cases hid : id = -1
  · rcases name with _ | n | n
    · exact ⟨1000, by unfold compatId; rw [if_pos hid]; rfl, by simp [CompatRule, hid]⟩
    · exact absurd rfl (hn hid n)
    · refine ⟨match lookup n with | .ok (some u) => BitVec.ofNat 64 u.toNat | _ => 1000,
        by unfold compatId; rw [if_pos hid]; rfl, ?_⟩
      refine ⟨fun h => absurd hid h, fun _ h => by simp at h, ?_, ?_⟩
      · rintro - m ⟨⟩ u hu
        simp only [hu, ofNat_toNat_widen]
      · rintro - m ⟨⟩ hu
        split
        · exact absurd ‹_› (hu _)
        · rfl
  · exact ⟨id, by unfold compatId; rw [if_neg hid]; rfl, fun _ => toNat_ofNat_toNat id,
      fun h => absurd h hid, fun h => absurd h hid, fun h => absurd h hid⟩

/-- **The ACI compatibility rule holds, for uid and gid independently**: on every readable
record and every database, `Aci::new` returns an ACI whose user follows the rule for the uid and
its `uname`, whose group follows it for the gid and its `gname`, and whose mode is the record's
— unless an id is `-1` with a name present but unreadable. -/
theorem Aci.new_compat (db : HostDb) (v : AciView)
    (hu : v.uid = -1 → ∀ e, v.uname ≠ some (.error e))
    (hg : v.gid = -1 → ∀ e, v.gname ≠ some (.error e)) :
    ∃ a, Aci.new db (.ok v) = .ok a ∧ CompatRule db.userUid v.uid v.uname a.user ∧
      CompatRule db.groupGid v.gid v.gname a.group ∧ a.mode.toNat = v.mode.toNat := by
  obtain ⟨uid, hu, hru⟩ := compatId_eq_ok db.userUid v.uid v.uname hu
  obtain ⟨gid, hg, hrg⟩ := compatId_eq_ok db.groupGid v.gid v.gname hg
  exact ⟨⟨UInt32.ofNat uid.toNat, UInt32.ofNat gid.toNat, v.mode.toUInt32⟩, by simp [Aci.new, hu, hg],
    hru, hrg, rfl⟩

/-- A legacy record naming a known user and a group the database cannot look up. -/
theorem Aci.new_compat_by_name :
    ∃ a, Aci.new ⟨fun n => if n = "alice" then .ok (some 1001) else .ok none, fun _ => .error 2⟩
        (.ok ⟨some (.ok "alice"), some (.ok "staff"), 420, -1, -1⟩) = .ok a ∧
      CompatRule (fun n => if n = "alice" then .ok (some 1001) else .ok none) (-1)
        (some (.ok "alice")) a.user ∧
      CompatRule (fun _ => .error 2) (-1) (some (.ok "staff")) a.group ∧ a.mode.toNat = 420 :=
  Aci.new_compat _ ⟨some (.ok "alice"), some (.ok "staff"), 420, -1, -1⟩
    (fun _ _ h => by cases h) (fun _ _ h => by cases h)

/-- A uid of `2^32`, in a message of 8 words, is not rejected: `as u32` wraps it to `0`, the root
user. -/
theorem Aci.new_user_wraps :
    Aci.new ⟨fun _ => .ok none, fun _ => .ok none⟩
        (AciRecord.serialize ⟨none, none, 420, 4294967296#64, 0#64⟩ 8) = .ok ⟨0, 0, 420⟩ := rfl

end Rfs.Meta
