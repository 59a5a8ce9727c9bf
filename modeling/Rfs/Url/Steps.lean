import Rfs.Url.Parse
import Mathlib.Tactic.Ring
import Mathlib.Data.Nat.Digits

/-!
# Url/Steps — each state of the parser, on a URL built piece by piece

One lemma per state: what the state makes of an input that is a component followed by the
delimiter that ends it.  The hypotheses say that the component holds no delimiter of its
state — which a percent-encoded component never does, since every delimiter is in the set it was
encoded with (`forall_mem_percentEncode`).

Facts about single characters are arithmetic on code points: `char_eq_iff_toNat` turns each
delimiter test of a set into a comparison that `omega` settles.
-/

namespace Rfs.Url

/-! ## Characters -/

/-- Two characters are equal exactly when their code points are. -/
theorem char_eq_iff_toNat {c d : Char} : c = d ↔ c.toNat = d.toNat :=
  ⟨congrArg _, fun h => by rw [← Char.ofNat_toNat c, h, Char.ofNat_toNat]⟩

/-- A property of every character an encoding can hold: of those the set leaves alone, of `%`
and of the hex digits. -/
theorem forall_mem_percentEncode {set : Char → Bool} {P : Char → Prop}
    (hplain : ∀ c, set c = false → P c) (hpct : P '%') (hhex : ∀ n < 16, P (hexUpper n))
    (l : List Char) : ∀ d ∈ percentEncode set l, P d := fun _ hd => by
  rcases mem_percentEncode hd with ⟨-, h⟩ | rfl | ⟨n, hn, rfl⟩
  · exact hplain _ h
  · exact hpct
  · exact hhex n hn

/-- A character the path set leaves alone is printable. -/
theorem printable_of_path {c : Char} (h : AsciiSet.path c = false) : isC0ControlOrSpace c = false := by
  simp only [AsciiSet.path, AsciiSet.fragment, AsciiSet.controls, Bool.or_eq_false_iff,
    decide_eq_false_iff_not, char_eq_iff_toNat, Char.reduceToNat] at h
  simp only [isC0ControlOrSpace, decide_eq_false_iff_not]
  omega

/-- What a character the path set leaves alone is not: a control, a space, `?` or `#`. -/
theorem path_facts {c : Char} (h : AsciiSet.path c = false) :
    isC0ControlOrSpace c = false ∧ c ≠ '?' ∧ c ≠ '#' := by
  refine ⟨printable_of_path h, ?_⟩
  simp only [AsciiSet.path, Bool.or_eq_false_iff, decide_eq_false_iff_not] at h
  exact ⟨h.1.1.2, h.1.1.1.2⟩

/-- A character that can stand inside a userinfo or a host and port: printable, and none of the
delimiters `/ ? # @ : [`. -/
def IsAuthorityChar (c : Char) : Prop :=
  isC0ControlOrSpace c = false ∧ isAuthorityEnd c = false ∧ c ≠ '@' ∧ c ≠ ':' ∧ c ≠ '['

instance : DecidablePred IsAuthorityChar := fun _ => inferInstanceAs (Decidable (_ ∧ _))

theorem isAuthorityChar_of_userinfo {c : Char} (h : AsciiSet.userinfo c = false) :
    IsAuthorityChar c := by
  simp only [AsciiSet.userinfo, Bool.or_eq_false_iff, decide_eq_false_iff_not] at h
  obtain ⟨⟨⟨⟨⟨⟨⟨⟨⟨⟨hp, hsl⟩, hco⟩, -⟩, -⟩, hat⟩, hbr⟩, -⟩, -⟩, -⟩, -⟩ := h
  obtain ⟨hpr, hq, hh⟩ := path_facts hp
  exact ⟨hpr, by simp [isAuthorityEnd, hsl, hq, hh], hat, hco, hbr⟩

/-- Every character of an encoded userinfo can stand in the authority. -/
theorem isAuthorityChar_of_mem_userinfo (l : List Char) :
    ∀ d ∈ percentEncode AsciiSet.userinfo l, IsAuthorityChar d :=
  forall_mem_percentEncode (fun _ => isAuthorityChar_of_userinfo) (by decide) (by decide) l

/-- A host name character: an ASCII digit or letter, `-` or `.`. -/
def isHostNameChar (c : Char) : Bool :=
  (0x30 ≤ c.toNat && c.toNat ≤ 0x39) || (0x41 ≤ c.toNat && c.toNat ≤ 0x5A) ||
    (0x61 ≤ c.toNat && c.toNat ≤ 0x7A) || c = '-' || c = '.'

/-- What a host name character is not. -/
theorem isHostNameChar_facts {c : Char} (h : isHostNameChar c = true) :
    IsAuthorityChar c ∧ c ≠ ']' ∧ isForbiddenHostCodePoint c = false ∧ AsciiSet.controls c = false := by
  simp only [isHostNameChar, Bool.or_eq_true, Bool.and_eq_true, decide_eq_true_eq, char_eq_iff_toNat,
    Char.reduceToNat] at h
  simp only [IsAuthorityChar, isC0ControlOrSpace, isAuthorityEnd, isForbiddenHostCodePoint,
    AsciiSet.controls, Bool.or_eq_false_iff, decide_eq_false_iff_not, ne_eq, char_eq_iff_toNat,
    Char.reduceToNat]
  omega

/-! ## Preprocessing and scheme -/

theorem dropWhile_of_forall {p : Char → Bool} :
    ∀ {l : List Char}, (∀ c ∈ l, p c = false) → l.dropWhile p = l
  | [], _ => rfl
  | c :: _, h => List.dropWhile_cons_of_neg (by simp [h c (.head _)])

/-- **An input of printable characters is read as it is.** -/
theorem preprocess_of_printable {s : String} (h : ∀ c ∈ s.data, isC0ControlOrSpace c = false) :
    preprocess s = s.data := by
  have hr : ∀ c ∈ s.data.reverse, isC0ControlOrSpace c = false := fun c hc => h c (List.mem_reverse.mp hc)
  rw [preprocess, dropWhile_of_forall h, dropWhile_of_forall hr, List.reverse_reverse,
    List.filter_eq_self]
  intro c hc
  have := h c hc
  simp only [isC0ControlOrSpace, decide_eq_false_iff_not, Nat.not_le] at this
  simp only [isTabOrNewline, Bool.not_eq_true', Bool.or_eq_false_iff, decide_eq_false_iff_not]
  refine ⟨⟨?_, ?_⟩, ?_⟩ <;> rintro rfl <;> simp at this

/-- A printable `zdb://` URL goes to the authority state. -/
theorem parse_zdb {rest : List Char} (h : ∀ c ∈ rest, isC0ControlOrSpace c = false) :
    parse (String.mk ("zdb://".data ++ rest)) = parseAuthority "zdb" rest := by
  rw [parse, preprocess_of_printable]
  · rfl
  · intro c hc
    rcases List.mem_append.mp hc with hc | hc
    · exact (by decide : ∀ c ∈ "zdb://".data, isC0ControlOrSpace c = false) c hc
    · exact h c hc

/-! ## Authority, host and port -/

theorem splitAtLastAt_of_not_mem : ∀ {l : List Char}, '@' ∉ l → splitAtLastAt l = none
  | [], _ => rfl
  | c :: _, h => by
    have hc : c ≠ '@' := fun e => h (e ▸ .head _)
    simp [splitAtLastAt, splitAtLastAt_of_not_mem fun m => h (.tail _ m), hc]

/-- The last `@` is the one before a host and port free of `@`. -/
theorem splitAtLastAt_append {hp : List Char} (h : '@' ∉ hp) :
    ∀ ui : List Char, splitAtLastAt (ui ++ '@' :: hp) = some (ui, hp)
  | [] => by simp [splitAtLastAt, splitAtLastAt_of_not_mem h]
  | _ :: ui => by simp [splitAtLastAt, splitAtLastAt_append h ui]

/-- A host free of `:` and `[` is read whole, and the state goes on with what follows. -/
theorem splitHostPort_append (b : List Char) :
    ∀ {a : List Char}, (∀ c ∈ a, c ≠ ':' ∧ c ≠ '[') →
      splitHostPort false (a ++ b) = (a ++ (splitHostPort false b).1, (splitHostPort false b).2)
  | [], _ => rfl
  | c :: a, h => by
    obtain ⟨h1, h2⟩ := h c (.head _)
    simp [splitHostPort, h1, h2, splitHostPort_append b fun c' hc' => h c' (.tail _ hc')]

/-- **A host name is an opaque host**, kept as written. -/
theorem parseOpaqueHost_hostName {h : List Char} (hne : h ≠ [])
    (hh : ∀ c ∈ h, isHostNameChar c = true) : parseOpaqueHost h = .ok (some (.domain (String.mk h))) := by
  unfold parseOpaqueHost
  split
  · exact absurd rfl hne
  · exact absurd (hh '[' (.head _)) (by decide)
  · have hf : h.any isForbiddenHostCodePoint = false :=
      List.any_eq_false.mpr fun c hc => by simp [(isHostNameChar_facts (hh c hc)).2.2.1]
    rw [hf, percentEncode_of_forall fun c hc => (isHostNameChar_facts (hh c hc)).2.2.2]
    rfl

/-- `decimalValue` with a running value. -/
theorem foldl_decimal (ds : List Char) : ∀ acc : Nat,
    ds.foldl (fun n d => 10 * n + (d.toNat - 0x30)) acc = acc * 10 ^ ds.length + decimalValue ds := by
  induction ds with
  | nil => simp [decimalValue]
  | cons d ds ih =>
    intro acc
    simp only [decimalValue, List.foldl_cons, List.length_cons, ih (10 * acc + _), ih (10 * 0 + _)]
    ring

theorem digitChar_facts : ∀ m < 10, (Nat.digitChar m).isDigit = true ∧
    (Nat.digitChar m).toNat - 0x30 = m ∧ IsAuthorityChar (Nat.digitChar m) := by
  decide

/-- The digits `toString` writes read back as the number, one more digit than they started with. -/
theorem toDigitsCore_spec : ∀ (fuel n : Nat) (ds : List Char), n < fuel →
    ds.length < (Nat.toDigitsCore 10 fuel n ds).length ∧
    (∀ d ∈ Nat.toDigitsCore 10 fuel n ds, d.isDigit = true ∧ IsAuthorityChar d ∨ d ∈ ds) ∧
    decimalValue (Nat.toDigitsCore 10 fuel n ds) = n * 10 ^ ds.length + decimalValue ds
  | 0, _, _, h => absurd h (Nat.not_lt_zero _)
  | fuel + 1, n, ds, h => by
    obtain ⟨hdig, hval, hauth⟩ := digitChar_facts (n % 10) (Nat.mod_lt _ (by decide))
    have hcons : decimalValue (Nat.digitChar (n % 10) :: ds) = n % 10 * 10 ^ ds.length + decimalValue ds := by
      rw [decimalValue, List.foldl_cons, foldl_decimal, hval]; simp
    have hmem : ∀ d ∈ Nat.digitChar (n % 10) :: ds, d.isDigit = true ∧ IsAuthorityChar d ∨ d ∈ ds :=
      fun d hd => (List.mem_cons.mp hd).elim (fun h => .inl (h ▸ ⟨hdig, hauth⟩)) .inr
    simp only [Nat.toDigitsCore]
    split
    · exact ⟨by simp, hmem, by rw [hcons]; congr 2; omega⟩
    · obtain ⟨hlen, hmem', hv⟩ := toDigitsCore_spec fuel (n / 10) (Nat.digitChar (n % 10) :: ds) (by omega)
      refine ⟨by simp at hlen; omega, fun d hd => (hmem' d hd).elim .inl (hmem d), ?_⟩
      rw [hv, hcons, List.length_cons, pow_succ]
      nth_rewrite 3 [← Nat.div_add_mod n 10]
      ring

/-- **The port state reads back the port `toString` writes**, leaving nothing to the path. -/
theorem parsePort_toDigits (p : UInt16) :
    parsePort (some (Nat.toDigits 10 p.toNat)) = .ok (some p, []) := by
  obtain ⟨hlen, hmem, hv⟩ := toDigitsCore_spec (p.toNat + 1) p.toNat [] (by omega)
  have hp : p.toNat < 65536 := p.toNat_lt_size
  unfold Nat.toDigits
  generalize hds : Nat.toDigitsCore 10 (p.toNat + 1) p.toNat [] = ds at hlen hmem hv
  obtain ⟨d, ds, rfl⟩ := List.exists_cons_of_length_pos hlen
  have hdig : ∀ c ∈ d :: ds, c.isDigit = true :=
    fun c hc => ((hmem c hc).resolve_right (List.not_mem_nil c)).1
  have hbs : ∀ c ∈ d :: ds, (c != '\\') = true := fun c hc =>
    bne_iff_ne.2 fun h => absurd (h ▸ hdig c hc) (by decide)
  simp only [parsePort, List.takeWhile_eq_self_iff.mpr hbs, List.dropWhile_eq_nil_iff.mpr hbs,
    List.all_eq_true.mpr hdig, hv, Bool.true_and, List.isEmpty_cons, List.length_nil, pow_zero,
    mul_one]
  rw [if_neg (by simp), if_pos (by simp [decimalValue]; omega)]
  simp only [decimalValue, List.foldl_nil, add_zero]
  exact congrArg (fun x => Except.ok (some x, [])) (UInt16.eq_of_toBitVec_eq (by
    simp [UInt16.ofNat, UInt16.toNat, BitVec.toNat_ofNat, Nat.mod_eq_of_lt hp]))

/-- The digits of a port are authority characters. -/
theorem toDigits_isAuthorityChar (n : Nat) : ∀ d ∈ Nat.toDigits 10 n, IsAuthorityChar d := fun d hd =>
  (((toDigitsCore_spec (n + 1) n [] (by omega)).2.1 d hd).resolve_right
    (List.not_mem_nil d)).2

/-- The userinfo, split at a `:` that its user part lacks. -/
theorem splitUserinfo_colon {u : List Char} (w : List Char) (hu : ':' ∉ u) :
    splitUserinfo (u ++ ':' :: w) = (percentEncode AsciiSet.userinfo u, percentEncode AsciiSet.userinfo w) := by
  have h : ∀ c ∈ u, (c != ':') = true := fun c hc => bne_iff_ne.mpr fun e => hu (e ▸ hc)
  simp [splitUserinfo, List.span_eq_take_drop, List.takeWhile_append_of_pos h,
    List.dropWhile_append_of_pos h]

theorem splitUserinfo_of_not_mem {u : List Char} (hu : ':' ∉ u) :
    splitUserinfo u = (percentEncode AsciiSet.userinfo u, []) := by
  have h : ∀ c ∈ u, (c != ':') = true := fun c hc => bne_iff_ne.mpr fun e => hu (e ▸ hc)
  simp [splitUserinfo, List.span_eq_take_drop, List.takeWhile_eq_self_iff.mpr h,
    List.dropWhile_eq_nil_iff.mpr h]

/-! ## Path -/

/-- The segments of a path, split at `/`. -/
def splitSlash (buf : List Char) : List Char → List (List Char)
  | [] => [buf]
  | c :: cs => if c = '/' then buf :: splitSlash [] cs else splitSlash (buf ++ [c]) cs

/-- **A plain path is its own segments**: with no character the path set encodes — so no `?` or
`#` — and no dot segment, the path state keeps each segment as it is. -/
theorem pathState_plain (cs : List Char) (hc : ∀ c ∈ cs, AsciiSet.path c = false) :
    ∀ path buf, (∀ seg ∈ splitSlash buf cs, isSingleDot seg = false ∧ isDoubleDot seg = false) →
      pathState path buf cs = path ++ (splitSlash buf cs).map String.mk := by
  induction cs with
  | nil =>
    intro path buf hd
    obtain ⟨h1, h2⟩ := hd buf (by simp [splitSlash])
    simp [pathState, flushSegment, splitSlash, h1, h2]
  | cons c cs ih =>
    intro path buf hd
    have hcs : ∀ c ∈ cs, AsciiSet.path c = false := fun c' h' => hc c' (.tail _ h')
    have hpc := hc c (.head _)
    by_cases hsl : c = '/'
    · subst hsl
      simp only [splitSlash, if_true] at hd ⊢
      obtain ⟨h1, h2⟩ := hd buf (.head _)
      rw [pathState, if_pos rfl, ih hcs _ _ fun seg hs => hd seg (.tail _ hs)]
      simp [flushSegment, h1, h2]
    · have hq : (c = '?' || c = '#') = false := by
        have := hpc
        simp only [AsciiSet.path, Bool.or_eq_false_iff, decide_eq_false_iff_not] at this
        simp [this.1.1.2, this.1.1.1.2]
      simp only [splitSlash, hsl, if_false] at hd ⊢
      rw [pathState, if_neg hsl, hq, if_neg (by simp), percentEncodeChar_of_not_mem hpc]
      exact ih hcs path _ hd

/-- A path after its leading `/` that the path state keeps as written: nothing the path set
encodes, and no dot segment. -/
def PlainPath (rest : List Char) : Prop :=
  (∀ c ∈ rest, AsciiSet.path c = false) ∧
    ∀ seg ∈ splitSlash [] rest, isSingleDot seg = false ∧ isDoubleDot seg = false

instance : DecidablePred PlainPath := fun _ => inferInstanceAs (Decidable (_ ∧ _))

/-! ## Dot segments

An encoded namespace is a dot segment only when it was `.` or `..`: the set leaves `.` as it is,
so no `%2e` comes out of encoding, and the only `.` in an encoding is one that was there. -/

end Rfs.Url
