import Mathlib.Data.List.Basic

/-!
# Url/Encode — percent-encoding, as the `url` crate applies it

`zdb.rs` takes its connection parameters from `url::Url`, which percent-encodes each component
of a URL as it parses it, with one `AsciiSet` per component (`userinfo`, `path`, …).  A
character in the set is written as `%XX` for each byte of its UTF-8 encoding, upper-case hex;
every non-ASCII character is in every set.

What the round trip of `Url/Zdb` needs is `percentEncode_idem`: encoding an already encoded
string with a smaller set — one that contains neither `%` nor a hex digit — changes nothing.
-/

namespace Rfs.Url

/-! ## The sets -/

namespace AsciiSet

/-- `CONTROLS` — the C0 controls and `DEL`, with every non-ASCII character. -/
def controls (c : Char) : Bool := c.toNat < 0x20 || 0x7F ≤ c.toNat

/-- `FRAGMENT` — `CONTROLS`, space, `"` (0x22), `<`, `>` and the backtick (0x60). -/
def fragment (c : Char) : Bool :=
  controls c || c = ' ' || c.toNat = 0x22 || c = '<' || c = '>' || c.toNat = 0x60

/-- `PATH` — `FRAGMENT`, `#`, `?`, `{` and `}`. -/
def path (c : Char) : Bool := fragment c || c = '#' || c = '?' || c = '{' || c = '}'

/-- `USERINFO` — `PATH`, `/`, `:`, `;`, `=`, `@`, `[`, the backslash (0x5C), `]`, `^` and `|`. -/
def userinfo (c : Char) : Bool :=
  path c || c = '/' || c = ':' || c = ';' || c = '=' || c = '@' || c = '[' || c.toNat = 0x5C ||
    c = ']' || c = '^' || c = '|'

/-- `PATH_SEGMENT` — `PATH`, `/` and `%`: what a single path segment must have encoded. -/
def pathSegment (c : Char) : Bool := path c || c = '/' || c = '%'

end AsciiSet

/-! ## Encoding -/

/-- The upper-case hex digit of a nibble. -/
def hexUpper (n : Nat) : Char := if n < 10 then Char.ofNat (0x30 + n) else Char.ofNat (0x37 + n)

/-- `%XX` for one byte. -/
def percentEncodeByte (b : UInt8) : List Char := ['%', hexUpper (b.toNat / 16), hexUpper (b.toNat % 16)]

/-- `utf8_percent_encode` of one character: its UTF-8 bytes, each as `%XX`, when it is in the set. -/
def percentEncodeChar (set : Char → Bool) (c : Char) : List Char :=
  if set c then (String.utf8EncodeChar c).flatMap percentEncodeByte else [c]

/-- **`utf8_percent_encode`** — character by character. -/
def percentEncode (set : Char → Bool) (cs : List Char) : List Char :=
  cs.flatMap (percentEncodeChar set)

@[simp] theorem percentEncode_nil (set : Char → Bool) : percentEncode set [] = [] := rfl

@[simp] theorem percentEncode_cons (set : Char → Bool) (c : Char) (cs : List Char) :
    percentEncode set (c :: cs) = percentEncodeChar set c ++ percentEncode set cs := rfl

@[simp] theorem percentEncode_append (set : Char → Bool) (cs ds : List Char) :
    percentEncode set (cs ++ ds) = percentEncode set cs ++ percentEncode set ds :=
  List.flatMap_append _ _ _

theorem percentEncodeChar_of_not_mem {set : Char → Bool} {c : Char} (h : set c = false) :
    percentEncodeChar set c = [c] := by
  simp [percentEncodeChar, h]

/-- A string none of whose characters is in the set is left as it is. -/
theorem percentEncode_of_forall {set : Char → Bool} :
    ∀ {cs : List Char}, (∀ c ∈ cs, set c = false) → percentEncode set cs = cs
  | [], _ => rfl
  | c :: cs, h => by
    rw [percentEncode_cons, percentEncodeChar_of_not_mem (h c (.head _)),
      percentEncode_of_forall fun c' hc' => h c' (.tail _ hc')]
    rfl

/-- **What an encoding is made of**: a character left as it was, `%`, or a hex digit. -/
theorem mem_percentEncode {set : Char → Bool} {cs : List Char} {d : Char}
    (h : d ∈ percentEncode set cs) :
    (d ∈ cs ∧ set d = false) ∨ d = '%' ∨ ∃ n < 16, d = hexUpper n := by
  obtain ⟨c, hc, hd⟩ := List.mem_flatMap.mp h
  unfold percentEncodeChar at hd
  split at hd
  · obtain ⟨b, -, hb⟩ := List.mem_flatMap.mp hd
    have hlt : b.toNat < 256 := b.toNat_lt_size
    simp only [percentEncodeByte, List.mem_cons, List.mem_singleton, List.not_mem_nil,
      or_false] at hb
    rcases hb with rfl | rfl | rfl
    · exact .inr (.inl rfl)
    · exact .inr (.inr ⟨_, by omega, rfl⟩)
    · exact .inr (.inr ⟨_, by omega, rfl⟩)
  · rename_i hs
    obtain rfl := List.mem_singleton.mp hd
    exact .inl ⟨hc, by simpa using hs⟩

/-- A set that contains neither `%` nor a hex digit: encoding with it again is harmless. -/
def Stable (s : Char → Bool) : Prop := s '%' = false ∧ ∀ n < 16, s (hexUpper n) = false

/-- **Encoding is idempotent across nested sets** — a string encoded with `t`, encoded again with
a stable `s ⊆ t`, is unchanged. -/
theorem percentEncode_idem {s t : Char → Bool} (hst : ∀ c, s c = true → t c = true)
    (hs : Stable s) (cs : List Char) : percentEncode s (percentEncode t cs) = percentEncode t cs := by
  refine percentEncode_of_forall fun d hd => ?_
  rcases mem_percentEncode hd with ⟨-, ht⟩ | rfl | ⟨n, hn, rfl⟩
  · cases hsd : s d
    · rfl
    · simp [hst d hsd] at ht
  · exact hs.1
  · exact hs.2 n hn

/-- A character of the encoding set that is neither `%` nor a hex digit never survives it. -/
theorem not_mem_percentEncode {t : Char → Bool} {d : Char} (ht : t d = true) (hp : d ≠ '%')
    (hh : ∀ n < 16, d ≠ hexUpper n) (cs : List Char) : d ∉ percentEncode t cs := fun hd => by
  rcases mem_percentEncode hd with ⟨-, h⟩ | h | ⟨n, hn, h⟩
  · simp [ht] at h
  · exact hp h
  · exact hh n hn h

theorem stable_userinfo : Stable AsciiSet.userinfo := by unfold Stable; decide

end Rfs.Url
