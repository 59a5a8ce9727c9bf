import Rfs.Url.Steps
import Rfs.Result

/-!
# Url/Accepted — what every URL the parser accepts is made of

The parser percent-encodes each component with its own set as it reads it, so whatever the
input, what it returns is well formed (`Url.WellFormed`): the user and the password hold no
character of the userinfo set (no `@`, `:` or `/`), an opaque host no forbidden host code point,
a path segment no `/` and no character of the path set (no `?` or `#`, no space), and the path of
a URL that cannot be a base no `?` or `#`.

One lemma per state, as in `Url/Steps`, but for every input.  The path state is a loop over the
input: `mem_flushSegment` is what one step can do, `pathState_forall` what the run keeps.
`parse_cases` says what a parse can return; `parse_wellFormed` assembles the states from it, and
`parse_notDot` adds that no dot segment survives.
An IPv6 literal is kept as written (`Url/Parse`), so nothing is said of it.

Before any state runs, the input is trimmed and its tabs and newlines removed: `parse_blanks`
says which inputs therefore parse the same.
-/

namespace Rfs.Url

/-! ## Well-formed URLs -/

/-- The characters a path segment holds as the path state writes it: none of the path set, and
no `/`. -/
def SegmentChars (cs : List Char) : Prop := ∀ c ∈ cs, AsciiSet.path c = false ∧ c ≠ '/'

@[simp] theorem segmentChars_nil : SegmentChars [] := nofun

@[simp] theorem segmentChars_append {cs ds : List Char} :
    SegmentChars (cs ++ ds) ↔ SegmentChars cs ∧ SegmentChars ds :=
  List.forall_mem_append

/-- **A well-formed URL**, component by component. -/
structure WellFormed (u : Url) : Prop where
  username : ∀ c ∈ u.username.data, AsciiSet.userinfo c = false
  password : ∀ c ∈ u.password.data, AsciiSet.userinfo c = false
  domain : ∀ d, u.host = some (.domain d) →
    ∀ c ∈ d.data, AsciiSet.controls c = false ∧ isForbiddenHostCodePoint c = false
  segments : ∀ ss, u.path = .segments ss → ∀ s ∈ ss, SegmentChars s.data
  opaquePath : ∀ p, u.path = .cannotBeABase p →
    ∀ c ∈ p.data, AsciiSet.controls c = false ∧ c ≠ '?' ∧ c ≠ '#'

/-! ## Encodings -/

/-- Every character of an encoding with a stable set is one the set leaves alone. -/
theorem forall_mem_percentEncode_stable {set : Char → Bool} (hs : Stable set) (cs : List Char) :
    ∀ d ∈ percentEncode set cs, set d = false :=
  forall_mem_percentEncode (fun _ h => h) hs.1 hs.2 cs

/-- The hex digits of an escape are no controls, no forbidden host code points, not in the
path set, and not `/`. -/
theorem hexUpper_facts : ∀ n < 16,
    AsciiSet.controls (hexUpper n) = false ∧ isForbiddenHostCodePoint (hexUpper n) = false ∧
      AsciiSet.path (hexUpper n) = false ∧ hexUpper n ≠ '/' := by
  decide

/-! ## Userinfo and host -/

/-- The user and the password are both encoded with the userinfo set, present or not. -/
theorem splitUserinfo_getD (ui : Option (List Char)) :
    (∀ c ∈ ((ui.map splitUserinfo).getD ([], [])).1, AsciiSet.userinfo c = false) ∧
      ∀ c ∈ ((ui.map splitUserinfo).getD ([], [])).2, AsciiSet.userinfo c = false := by
  rcases ui with _ | ui
  · exact ⟨nofun, nofun⟩
  · simp only [Option.map_some', Option.getD_some, splitUserinfo]
    split
    · exact ⟨forall_mem_percentEncode_stable stable_userinfo _,
        forall_mem_percentEncode_stable stable_userinfo _⟩
    · exact ⟨forall_mem_percentEncode_stable stable_userinfo _, nofun⟩

/-- **An opaque host holds no forbidden code point**: the parser rejects one in the input, and
the escapes it writes hold none. -/
theorem parseOpaqueHost_domain {cs : List Char} {d : String}
    (h : parseOpaqueHost cs = .ok (some (.domain d))) :
    ∀ c ∈ d.data, AsciiSet.controls c = false ∧ isForbiddenHostCodePoint c = false := by
  unfold parseOpaqueHost at h
  split at h
  · cases h
  · split at h <;> cases h
  · split at h
    · cases h
    · rename_i hany
      cases h
      intro c hc
      rcases mem_percentEncode hc with ⟨hmem, hctl⟩ | rfl | ⟨n, hn, rfl⟩
      · simp only [List.any_eq_true, not_exists, not_and, Bool.not_eq_true] at hany
        exact ⟨hctl, hany c hmem⟩
      · exact ⟨rfl, rfl⟩
      · obtain ⟨hctl, hfb, -⟩ := hexUpper_facts n hn
        exact ⟨hctl, hfb⟩

/-! ## The path state

`mem_flushSegment` says what one end of a segment can add to the path; `pathState_forall` carries
any property of segments that this keeps through the whole loop.  Two are used: the characters
of a segment (`pathState_segments`), and that no segment is a dot segment (`pathState_notDot`). -/

/-- A segment that is no dot segment, in any spelling: not `.`, `..`, `%2e`, `.%2E`, …. -/
def NotDot (s : String) : Prop := isSingleDot s.data = false ∧ isDoubleDot s.data = false

instance : DecidablePred NotDot := fun _ => inferInstanceAs (Decidable (_ ∧ _))

/-- **What one end of a segment does to the path**: each segment after it was there before, is
empty, or is the buffer — and then the buffer is no dot segment. -/
theorem mem_flushSegment {path : List String} {buf : List Char} {atEnd : Bool} {s : String}
    (hs : s ∈ flushSegment path buf atEnd) :
    s ∈ path ∨ s = "" ∨ (s = String.mk buf ∧ isSingleDot buf = false ∧ isDoubleDot buf = false) := by
  unfold flushSegment at hs
  split_ifs at hs <;> simp only [List.mem_append, List.mem_singleton, List.not_mem_nil,
    or_false] at hs
  · exact hs.imp_left List.mem_of_mem_dropLast |>.imp_right .inl
  · exact .inl (List.mem_of_mem_dropLast hs)
  · exact hs.imp_right .inl
  · exact .inl hs
  · rename_i hd hsd
    exact hs.imp_right fun h => .inr ⟨h, by simpa using hsd, by simpa using hd⟩

section PathState

variable {P : String → Prop} {B : List Char → Prop} (hP : P "") (hB : B [])
  (happ : ∀ buf c, B buf → c ≠ '/' → B (buf ++ percentEncodeChar AsciiSet.path c))
  (hflush : ∀ buf, B buf → isSingleDot buf = false → isDoubleDot buf = false → P (String.mk buf))
include hP hflush

/-- The end of a segment keeps `P` of every segment. -/
theorem flushSegment_forall {path : List String} {buf : List Char} (atEnd : Bool)
    (hp : ∀ s ∈ path, P s) (hb : B buf) : ∀ s ∈ flushSegment path buf atEnd, P s := fun s hs => by
  rcases mem_flushSegment hs with hs | rfl | ⟨rfl, h1, h2⟩
  · exact hp s hs
  · exact hP
  · exact hflush buf hb h1 h2

include hB happ in
/-- **The path state keeps a property of segments** that the empty segment has and every buffer
it flushes has: a buffer that is no dot segment, built by appending encoded characters other
than `/` to a buffer that keeps `B`. -/
theorem pathState_forall : ∀ (cs : List Char) {path : List String} {buf : List Char},
    (∀ s ∈ path, P s) → B buf → ∀ s ∈ pathState path buf cs, P s
  | [], _, _, hp, hb => flushSegment_forall hP hflush true hp hb
  | c :: cs, _, _, hp, hb => by
    unfold pathState
    split_ifs with hsl
    · exact pathState_forall cs (flushSegment_forall hP hflush false hp hb) hB
    · exact flushSegment_forall hP hflush true hp hb
    · exact pathState_forall cs hp (happ _ c hb hsl)

end PathState

/-- A character of the path state other than `/`, encoded with the path set, is well formed. -/
theorem segmentChars_percentEncodeChar {c : Char} (hc : c ≠ '/') :
    SegmentChars (percentEncodeChar AsciiSet.path c) := fun d hd => by
  have hd' : d ∈ percentEncode AsciiSet.path [c] := by simpa using hd
  rcases mem_percentEncode hd' with ⟨hmem, hpath⟩ | rfl | ⟨n, hn, rfl⟩
  · obtain rfl := List.mem_singleton.mp hmem
    exact ⟨hpath, hc⟩
  · decide
  · obtain ⟨-, -, hpath, hsl⟩ := hexUpper_facts n hn
    exact ⟨hpath, hsl⟩

/-- **The path state writes only well-formed segments**, from any path and buffer that are. -/
theorem pathState_segments (cs : List Char) {path : List String} {buf : List Char}
    (hp : ∀ s ∈ path, SegmentChars s.data) (hb : SegmentChars buf) :
    ∀ s ∈ pathState path buf cs, SegmentChars s.data :=
  pathState_forall segmentChars_nil segmentChars_nil
    (fun _ _ hb hc => segmentChars_append.2 ⟨hb, segmentChars_percentEncodeChar hc⟩)
    (fun _ hb _ _ => hb) cs hp hb

/-- **The path state leaves no dot segment**, from any path that holds none: a `.` adds nothing,
a `..` removes the last segment, and either adds an empty one at the end. -/
theorem pathState_notDot (cs : List Char) {path : List String} (buf : List Char)
    (hp : ∀ s ∈ path, NotDot s) : ∀ s ∈ pathState path buf cs, NotDot s :=
  pathState_forall (B := fun _ => True) (by decide) trivial (fun _ _ _ _ => trivial)
    (fun _ _ h1 h2 => ⟨h1, h2⟩) cs hp trivial

/-- After an authority there is no path, or the path state's, run from an empty path and
buffer. -/
theorem pathStart_cases (cs : List Char) :
    pathStart cs = [] ∨ ∃ cs', pathStart cs = pathState [] [] cs' := by
  unfold pathStart
  split
  all_goals first | exact .inl rfl | exact .inr ⟨_, rfl⟩

theorem pathStart_segments (cs : List Char) : ∀ s ∈ pathStart cs, SegmentChars s.data := by
  rcases pathStart_cases cs with h | ⟨_, h⟩ <;> rw [h]
  · exact nofun
  · exact pathState_segments _ nofun segmentChars_nil

theorem pathStart_notDot (cs : List Char) : ∀ s ∈ pathStart cs, NotDot s := by
  rcases pathStart_cases cs with h | ⟨_, h⟩ <;> rw [h]
  · exact nofun
  · exact pathState_notDot _ [] nofun

/-! ## The parser -/

/-- **What the authority state returns**: the userinfo's split as the credentials, an opaque
host the host parser accepted, and the path start state's path on what follows the port. -/
theorem parseAuthority_eq_ok {scheme : String} {cs : List Char} {u : Url}
    (h : parseAuthority scheme cs = .ok u) :
    ∃ (ui : Option (List Char)) (hostStr p : List Char), parseOpaqueHost hostStr = .ok u.host ∧
      u.username.data = ((ui.map splitUserinfo).getD ([], [])).1 ∧
      u.password.data = ((ui.map splitUserinfo).getD ([], [])).2 ∧
      u.path = .segments (pathStart p) := by
  dsimp only [parseAuthority] at h
  split_ifs at h <;> simp only [pure_eq_ok, throw_eq_error, error_bind, ok_bind, bind_eq_ok,
    reduceCtorEq, Except.ok.injEq] at h
  obtain ⟨_, hhost, ⟨_, _⟩, -, h⟩ := h
  split_ifs at h
  cases h
  exact ⟨_, _, _, hhost, rfl, rfl, rfl⟩

/-- The authority state and what follows it. -/
theorem parseAuthority_wellFormed {scheme : String} {cs : List Char} {u : Url}
    (h : parseAuthority scheme cs = .ok u) : u.WellFormed := by
  obtain ⟨ui, _, _, hhost, huser, hpass, hpath⟩ := parseAuthority_eq_ok h
  refine ⟨huser ▸ (splitUserinfo_getD ui).1, hpass ▸ (splitUserinfo_getD ui).2,
    fun d hd => parseOpaqueHost_domain (hd ▸ hhost), fun ss hss => ?_, fun p hp => ?_⟩
  · rw [hpath] at hss
    cases hss
    exact pathStart_segments _
  · rw [hpath] at hp
    cases hp

/-- The path of a URL that cannot be a base, up to its query or fragment. -/
theorem opaquePath_chars (rest : List Char) :
    ∀ c ∈ percentEncode AsciiSet.controls (rest.takeWhile fun c => c != '?' && c != '#'),
      AsciiSet.controls c = false ∧ c ≠ '?' ∧ c ≠ '#' := fun c hc => by
  rcases mem_percentEncode hc with ⟨hmem, hctl⟩ | rfl | ⟨n, hn, rfl⟩
  · have := List.mem_takeWhile_imp hmem
    simp only [Bool.and_eq_true, bne_iff_ne, ne_eq] at this
    exact ⟨hctl, this⟩
  · decide
  · obtain ⟨hctl, -, hpath, -⟩ := hexUpper_facts n hn
    exact ⟨hctl, (path_facts hpath).2⟩

/-- **What a parse can return**: the authority state's URL, or a URL with no credentials and no
host whose path is the path state's or the path of a URL that cannot be a base. -/
theorem parse_cases {s : String} {u : Url} (h : parse s = .ok u) :
    (∃ scheme cs, parseAuthority scheme cs = .ok u) ∨
      ∃ scheme rest, u = ⟨scheme, "", "", none, none, .segments (pathState [] [] rest)⟩ ∨
        u = ⟨scheme, "", "", none, none, .cannotBeABase (String.mk (percentEncode AsciiSet.controls
          (rest.takeWhile fun c => c != '?' && c != '#')))⟩ := by
  unfold parse at h
  split at h
  · cases h
  · split_ifs at h
    unfold parseNonSpecial at h
    split at h
    · exact .inl ⟨_, _, h⟩
    · cases h
      exact .inr ⟨_, _, .inl rfl⟩
    · cases h
      exact .inr ⟨_, _, .inr rfl⟩

/-- **Every URL the parser accepts is well formed**, whatever the input. -/
theorem parse_wellFormed {s : String} {u : Url} (h : parse s = .ok u) : u.WellFormed := by
  rcases parse_cases h with ⟨_, _, h⟩ | ⟨_, _, rfl | rfl⟩
  · exact parseAuthority_wellFormed h
  · refine ⟨nofun, nofun, nofun, fun ss hss => ?_, nofun⟩
    cases hss
    exact pathState_segments _ nofun segmentChars_nil
  · refine ⟨nofun, nofun, nofun, nofun, fun p hp => ?_⟩
    cases hp
    exact opaquePath_chars _

/-- A password with an `@`, a path with a dot segment, a query and a fragment. -/
theorem parse_wellFormed_hub :
    ∃ u, parse "zdb://user:p@ss@hub.grid.tf:9900/a/../ns?q#f" = .ok u ∧ u.WellFormed :=
  ⟨_, rfl, @parse_wellFormed "zdb://user:p@ss@hub.grid.tf:9900/a/../ns?q#f" _ rfl⟩

/-- The user and the password a parse returns hold no character of the userinfo set. -/
theorem parse_userinfo {s : String} {u : Url} (h : parse s = .ok u) :
    (∀ c ∈ u.username.data, AsciiSet.userinfo c = false) ∧
      ∀ c ∈ u.password.data, AsciiSet.userinfo c = false := by
  rcases parse_cases h with ⟨_, _, h⟩ | ⟨_, _, rfl | rfl⟩
  · exact ⟨(parseAuthority_wellFormed h).username, (parseAuthority_wellFormed h).password⟩
  all_goals exact ⟨nofun, nofun⟩

/-- **Every list of segments the parser returns is the path state's**, run from an empty path. -/
theorem parse_segments {s : String} {u : Url} {ss : List String} (h : parse s = .ok u)
    (hss : u.path = .segments ss) : ∃ cs, ss = pathStart cs := by
  rcases parse_cases h with ⟨_, _, h⟩ | ⟨_, _, rfl | rfl⟩
  · obtain ⟨_, _, _, -, -, -, hpath⟩ := parseAuthority_eq_ok h
    rw [hpath] at hss
    exact ⟨_, (Url.Path.segments.inj hss).symm⟩
  · cases hss
    exact ⟨'/' :: _, rfl⟩
  · cases hss

/-- **No segment of a parsed path is a dot segment**, whatever the input. -/
theorem parse_notDot {s : String} {u : Url} {ss : List String} (h : parse s = .ok u)
    (hss : u.path = .segments ss) : ∀ seg ∈ ss, NotDot seg := by
  obtain ⟨cs, rfl⟩ := parse_segments h hss
  exact pathStart_notDot cs

/-! ## What the parser ignores -/

/-- Dropping a leading run commutes with a filter that keeps every character the run stops at. -/
theorem dropWhile_filter {p q : Char → Bool} (hpq : ∀ c, p c = false → q c = true) :
    ∀ l : List Char, (l.filter q).dropWhile p = (l.dropWhile p).filter q
  | [] => rfl
  | c :: l => by
    cases hp : p c
    · simp [List.filter_cons, hpq c hp, hp]
    · cases hq : q c <;> simp [List.filter_cons, hq, hp, dropWhile_filter hpq l]

/-- Tabs and newlines are removed wherever they stand, so removing them first changes nothing. -/
theorem preprocess_filter (s : String) :
    preprocess ⟨s.data.filter (!isTabOrNewline ·)⟩ = preprocess s := by
  have hpq : ∀ c, isC0ControlOrSpace c = false → (!isTabOrNewline c) = true := fun c h => by
    simp only [isC0ControlOrSpace, decide_eq_false_iff_not, not_le] at h
    simp only [isTabOrNewline, Bool.not_eq_true', Bool.or_eq_false_iff, decide_eq_false_iff_not,
      char_eq_iff_toNat, Char.reduceToNat]
    omega
  simp only [preprocess, dropWhile_filter hpq, ← List.filter_reverse, List.reverse_reverse,
    List.filter_filter, Bool.and_self]

/-- C0 controls and spaces before and after the input are trimmed. -/
theorem preprocess_trim (pre suf : List Char) (s : String)
    (h : ∀ c ∈ pre ++ suf, isC0ControlOrSpace c = true) :
    preprocess ⟨pre ++ s.data ++ suf⟩ = preprocess s := by
  have hpre : ∀ c ∈ pre, isC0ControlOrSpace c = true := fun c hc => h c (List.mem_append_left _ hc)
  have hsuf : ∀ c ∈ suf.reverse, isC0ControlOrSpace c = true := fun c hc =>
    h c (List.mem_append_right _ (List.mem_reverse.mp hc))
  simp only [preprocess]
  rw [List.append_assoc, List.dropWhile_append_of_pos hpre, List.dropWhile_append]
  split
  · rename_i he
    rw [List.isEmpty_iff.mp he, List.dropWhile_eq_nil_iff.mpr fun c hc =>
      h c (List.mem_append_right _ hc)]
  · rw [List.reverse_append, List.dropWhile_append_of_pos hsuf]

/-- **The parser ignores blanks around the input, and tabs and newlines anywhere in it**: an input
with C0 controls or spaces before and after it, whose other characters are another input's up to
tabs and newlines, parses the same. -/
theorem parse_blanks {s t : String} (pre suf : List Char)
    (hps : ∀ c ∈ pre ++ suf, isC0ControlOrSpace c = true)
    (hst : s.data.filter (!isTabOrNewline ·) = t.data.filter (!isTabOrNewline ·)) :
    parse ⟨pre ++ s.data ++ suf⟩ = parse t := by
  have h : preprocess ⟨pre ++ s.data ++ suf⟩ = preprocess t :=
    calc preprocess ⟨pre ++ s.data ++ suf⟩
      _ = preprocess s := preprocess_trim pre suf s hps
      _ = preprocess ⟨s.data.filter (!isTabOrNewline ·)⟩ := (preprocess_filter s).symm
      _ = preprocess t := by rw [hst, preprocess_filter]
  unfold parse
  rw [h]

/-- The segments of the path, when `path_segments` returns them. -/
theorem path_of_pathSegments {u : Url} {ss : List String} (h : u.pathSegments = some ss) :
    u.path = .segments ss := by
  unfold Url.pathSegments at h
  split at h <;> cases h
  assumption

end Rfs.Url
