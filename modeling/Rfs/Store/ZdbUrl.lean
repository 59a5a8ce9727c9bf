import Rfs.Store.Zdb
import Rfs.Url.Steps

/-!
# Store/ZdbUrl — what `get_connection_info` reads back from a zdb URL

A zdb URL is formed as `zdb://[enc(u)[":" enc(w)] "@"]h[":"p]["/"enc(n)]`, each component
percent-encoded where the URL syntax requires it (`ZdbUrl.toString`).  `get_connection_info`
inverts the formation up to that encoding: it hands the store the components as the URL holds
them, since `Url::username`, `Url::password` and `Url::path_segments` never decode.  An empty
password is no password, as `Url::password` answers `None` for it.

The namespace is the *last* path segment.  A trailing `/` therefore names the empty namespace,
and every connection the pool hands out selects it.
-/

namespace Rfs.Store

open Url

/-! ## Forming a zdb URL -/

/-- A component as the URL holds it: percent-encoded with the component's set. -/
def encode (set : Char → Bool) (s : String) : String := ⟨percentEncode set s.data⟩

/-- The parts of a TCP zdb URL: credentials (a user, and a password only with a user), host,
port and namespace. -/
structure ZdbUrl where
  credentials : Option (String × Option String)
  host : String
  port : Option UInt16
  ns : Option String
deriving DecidableEq, Repr

namespace ZdbUrl

/-- `[enc(u)[":" enc(w)] "@"]`. -/
def userinfo : Option (String × Option String) → String
  | some (u, some w) => encode AsciiSet.userinfo u ++ ":" ++ encode AsciiSet.userinfo w ++ "@"
  | some (u, none) => encode AsciiSet.userinfo u ++ "@"
  | none => ""

/-- `[":" p]`. -/
def portPart : Option UInt16 → String
  | some p => ":" ++ toString p
  | none => ""

/-- `["/" enc(n)]`. -/
def nsPart : Option String → String
  | some n => "/" ++ encode AsciiSet.pathSegment n
  | none => ""

/-- The authority: userinfo, host and port. -/
def authority (z : ZdbUrl) : String := userinfo z.credentials ++ z.host ++ portPart z.port

/-- **The zdb URL of its parts.** -/
def toString (z : ZdbUrl) : String := "zdb://" ++ z.authority ++ nsPart z.ns

/-- The parts a zdb URL reads back: a host name, and a namespace other than `.` and `..`. -/
def WellFormed (z : ZdbUrl) : Prop :=
  z.host ≠ "" ∧ (∀ c ∈ z.host.data, isHostNameChar c = true) ∧ z.ns ≠ some "." ∧ z.ns ≠ some ".."

instance : DecidablePred WellFormed := fun _ => inferInstanceAs (Decidable (_ ∧ _ ∧ _ ∧ _))

theorem portPart_data : ∀ port : Option UInt16,
    (portPart port).data = (port.map fun p => ':' :: Nat.toDigits 10 p.toNat).getD []
  | some _ => rfl
  | none => rfl

/-- The host and port of a zdb URL hold no character that ends the authority, and no `@`. -/
theorem hostPort_chars {host : List Char} (hh : ∀ c ∈ host, isHostNameChar c = true)
    (port : Option UInt16) : ∀ c ∈ host ++ (portPart port).data,
      isC0ControlOrSpace c = false ∧ isAuthorityEnd c = false ∧ c ≠ '@' := by
  have hauth : ∀ {c}, IsAuthorityChar c → isC0ControlOrSpace c = false ∧ isAuthorityEnd c = false ∧ c ≠ '@' :=
    fun h => ⟨h.1, h.2.1, h.2.2.1⟩
  intro c hc
  rcases List.mem_append.mp hc with hc | hc
  · exact hauth (isHostNameChar_facts (hh c hc)).1
  · rw [portPart_data] at hc
    rcases port with _ | p
    · simp at hc
    · rcases List.mem_cons.mp hc with rfl | hc
      · decide
      · exact hauth (toDigits_isAuthorityChar _ c hc)

end ZdbUrl

/-! ## The authority state on a zdb authority -/

/-- **The authority state on a zdb authority**: a userinfo free of `@` when there is one, then a
host name and a port, then a path; the userinfo is split at its first `:`. -/
theorem parseAuthority_zdb (ui : Option (List Char)) {host : List Char} (port : Option UInt16)
    (path : List Char) (hui : ∀ l ∈ ui, ∀ c ∈ l, isAuthorityEnd c = false ∧ c ≠ '@')
    (hne : host ≠ []) (hh : ∀ c ∈ host, isHostNameChar c = true)
    (hpath : ∀ c ∈ path.head?, isAuthorityEnd c = true) :
    parseAuthority "zdb" ((ui.map (· ++ ['@'])).getD [] ++ (host ++ (ZdbUrl.portPart port).data) ++ path) =
      .ok ⟨"zdb", ⟨((ui.map splitUserinfo).getD ([], [])).1⟩, ⟨((ui.map splitUserinfo).getD ([], [])).2⟩,
        some (.domain ⟨host⟩), port, .segments (pathStart path)⟩ := by
  have hhp := ZdbUrl.hostPort_chars hh port
  have hat : '@' ∉ host ++ (ZdbUrl.portPart port).data := fun h => (hhp _ h).2.2 rfl
  have hauth : ∀ c ∈ (ui.map (· ++ ['@'])).getD [] ++ (host ++ (ZdbUrl.portPart port).data),
      (!isAuthorityEnd c) = true := by
    intro c hc
    rcases List.mem_append.mp hc with hc | hc
    · rcases ui with _ | l
      · simp at hc
      · rcases List.mem_append.mp hc with hc | hc
        · simp [(hui l rfl c hc).1]
        · obtain rfl := List.mem_singleton.mp hc
          rfl
    · simp [(hhp c hc).2.1]
  have hpath' : path.takeWhile (!isAuthorityEnd ·) = [] ∧ path.dropWhile (!isAuthorityEnd ·) = path := by
    cases path with
    | nil => simp
    | cons c _ => simp [hpath c rfl]
  have htake := (List.takeWhile_append_of_pos hauth).trans (by rw [hpath'.1, List.append_nil])
  have hdrop := (@List.dropWhile_append_of_pos _ _ _ path hauth).trans hpath'.2
  have hsplit : splitHostPort false (host ++ (ZdbUrl.portPart port).data) =
      (host, port.map fun p => Nat.toDigits 10 p.toNat) := by
    rw [splitHostPort_append _ fun c hc => ⟨(isHostNameChar_facts (hh c hc)).1.2.2.2.1,
      (isHostNameChar_facts (hh c hc)).1.2.2.2.2⟩]
    cases port <;> simp [ZdbUrl.portPart_data, splitHostPort]
  have hport : parsePort (port.map fun p => Nat.toDigits 10 p.toNat) = .ok (port, []) := by
    cases port
    · rfl
    · exact parsePort_toDigits _
  have hhost : host.isEmpty = false := by cases host; exact absurd rfl hne; rfl
  simp only [parseAuthority, htake, hdrop]
  rcases ui with _ | l
  · simp [splitAtLastAt_of_not_mem hat, hsplit, hport, parseOpaqueHost_hostName hne hh, hhost]
  · simp [splitAtLastAt_append hat, hsplit, hport, parseOpaqueHost_hostName hne hh, hhost, hne]

theorem colon_not_mem_userinfo (l : List Char) : ':' ∉ percentEncode AsciiSet.userinfo l :=
  not_mem_percentEncode (by decide) (by decide) (by decide) l

/-- Parsed back, an encoded userinfo component is what it was: the parser encodes it again with the
same set, which changes nothing. -/
theorem percentEncode_userinfo_idem (l : List Char) :
    percentEncode AsciiSet.userinfo (percentEncode AsciiSet.userinfo l) = percentEncode AsciiSet.userinfo l :=
  percentEncode_idem (fun _ h => h) stable_userinfo l

/-- Every character of a zdb authority is printable and none ends the authority. -/
theorem ZdbUrl.authority_chars (z : ZdbUrl) (hh : ∀ c ∈ z.host.data, isHostNameChar c = true) :
    ∀ c ∈ z.authority.data, isC0ControlOrSpace c = false ∧ isAuthorityEnd c = false := by
  have henc : ∀ (s : String), ∀ c ∈ (encode AsciiSet.userinfo s).data,
      isC0ControlOrSpace c = false ∧ isAuthorityEnd c = false :=
    fun s c hc => ⟨(isAuthorityChar_of_mem_userinfo _ c hc).1, (isAuthorityChar_of_mem_userinfo _ c hc).2.1⟩
  intro c hc
  simp only [authority, String.data_append, List.mem_append] at hc
  rcases hc with (hc | hc) | hc
  · rcases z with ⟨_ | ⟨u, _ | w⟩, _, _, _⟩ <;>
      simp only [userinfo, String.data_append, List.mem_append] at hc
    · simp at hc
    · rcases hc with hc | hc
      · exact henc u c hc
      · simp at hc; subst hc; decide
    · rcases hc with ((hc | hc) | hc) | hc
      · exact henc u c hc
      · simp at hc; subst hc; decide
      · exact henc w c hc
      · simp at hc; subst hc; decide
  · exact (fun h => ⟨h.1, h.2.1⟩) (hostPort_chars hh z.port c (List.mem_append_left _ hc))
  · exact (fun h => ⟨h.1, h.2.1⟩) (hostPort_chars hh z.port c (List.mem_append_right _ hc))

/-- **The parser on a zdb URL with a host**: the host and port as written, the userinfo
components as encoded, and the path as the path state reads it. -/
theorem parse_zdbUrl (z : ZdbUrl) (hne : z.host ≠ "") (hh : ∀ c ∈ z.host.data, isHostNameChar c = true)
    (path : List Char) (hpath : ∀ c ∈ path.head?, isAuthorityEnd c = true)
    (hpr : ∀ c ∈ path, isC0ControlOrSpace c = false) :
    parse ("zdb://" ++ z.authority ++ ⟨path⟩) =
      .ok ⟨"zdb", (z.credentials.map fun c => encode AsciiSet.userinfo c.1).getD "",
        (z.credentials.bind fun c => c.2.map (encode AsciiSet.userinfo)).getD "",
        some (.domain z.host), z.port, .segments (pathStart path)⟩ := by
  have hne' : z.host.data ≠ [] := fun h => hne (String.ext h)
  rw [show "zdb://" ++ z.authority ++ ⟨path⟩ = ⟨"zdb://".data ++ (z.authority.data ++ path)⟩ from
      String.ext (by simp), parse_zdb]
  swap
  · intro c hc
    rcases List.mem_append.mp hc with hc | hc
    · exact (z.authority_chars hh c hc).1
    · exact hpr c hc
  have hui : ∀ l : List Char, (∀ c ∈ l, IsAuthorityChar c) → ∀ c ∈ l, isAuthorityEnd c = false ∧ c ≠ '@' :=
    fun l h c hc => ⟨(h c hc).2.1, (h c hc).2.2.1⟩
  obtain ⟨cred, host, port, ns⟩ := z
  rcases cred with _ | ⟨u, _ | w⟩
  · have h := parseAuthority_zdb none port path (by simp) hne' hh hpath
    simp only [Option.map_none', Option.getD_none, List.nil_append] at h
    simpa [ZdbUrl.authority, ZdbUrl.userinfo] using h
  · have h := parseAuthority_zdb (some (percentEncode AsciiSet.userinfo u.data)) port path
      (by simpa using hui _ (isAuthorityChar_of_mem_userinfo _)) hne' hh hpath
    simp only [Option.map_some', Option.getD_some, splitUserinfo_of_not_mem (colon_not_mem_userinfo _),
      percentEncode_userinfo_idem] at h
    simpa [ZdbUrl.authority, ZdbUrl.userinfo, encode] using h
  · have h := parseAuthority_zdb (some (percentEncode AsciiSet.userinfo u.data ++ ':' ::
      percentEncode AsciiSet.userinfo w.data)) port path (by
        simp only [Option.mem_def, Option.some.injEq, forall_eq']
        intro c hc
        rcases List.mem_append.mp hc with hc | hc
        · exact hui _ (isAuthorityChar_of_mem_userinfo _) c hc
        · rcases List.mem_cons.mp hc with rfl | hc
          · decide
          · exact hui _ (isAuthorityChar_of_mem_userinfo _) c hc) hne' hh hpath
    simp only [Option.map_some', Option.getD_some, splitUserinfo_colon _ (colon_not_mem_userinfo _),
      percentEncode_userinfo_idem] at h
    simpa [ZdbUrl.authority, ZdbUrl.userinfo, encode] using h

/-! ## What `get_connection_info` reads back -/

/-- `username()` and `password()` as `get_connection_info` keeps them: `None` when empty. -/
theorem nonEmpty_getD (x : Option String) :
    (if (x.getD "").isEmpty then none else some (x.getD "")) = x.filter fun s => !s.isEmpty := by
  rcases x with _ | s
  · rfl
  · cases h : s.isEmpty <;> simp [Option.filter, h]

theorem pathSegments_bind_getLast (u : Url) (ss : List String) (h : u.path = .segments ss) :
    u.pathSegments.bind List.getLast? = ss.getLast? := by
  unfold Url.pathSegments
  rw [h]
  cases ss <;> rfl

/-- **`get_connection_info` on a zdb URL with a host**: the TCP address of the host and port
(`9900` by default), the encoded credentials, each `None` when empty, and as namespace the last
segment the path state produces. -/
theorem getConnectionInfo_zdb (z : ZdbUrl) (hne : z.host ≠ "")
    (hh : ∀ c ∈ z.host.data, isHostNameChar c = true) (path : List Char)
    (hpath : ∀ c ∈ path.head?, isAuthorityEnd c = true) (hpr : ∀ c ∈ path, isC0ControlOrSpace c = false) :
    getConnectionInfo ("zdb://" ++ z.authority ++ ⟨path⟩) =
      .ok (⟨.tcp z.host (z.port.getD 9900),
        ⟨0, (z.credentials.map fun c => encode AsciiSet.userinfo c.1).filter fun s => !s.isEmpty,
          (z.credentials.bind fun c => c.2.map (encode AsciiSet.userinfo)).filter fun s => !s.isEmpty⟩⟩,
        (pathStart path).getLast?) := by
  unfold getConnectionInfo
  rw [parse_zdbUrl z hne hh path hpath hpr]
  simp only [Url.Host.toString, Url.password?]
  rw [pathSegments_bind_getLast _ (pathStart path) rfl, nonEmpty_getD, nonEmpty_getD]

example : getConnectionInfo "zdb://hub.grid.tf:9900" =
    .ok (⟨.tcp "hub.grid.tf" 9900, ⟨0, none, none⟩⟩, none) := rfl

example : getConnectionInfo "zdb://username@hub.grid.tf/custom" =
    .ok (⟨.tcp "hub.grid.tf" 9900, ⟨0, some "username", none⟩⟩, some "custom") := rfl

example : getConnectionInfo "zdb:///path/to/socket" =
    .ok (⟨.unix "/path/to/socket", ⟨0, none, none⟩⟩, none) := rfl

/-! ## The namespace each connection selects -/

/-- **The namespace is the last path segment**: after a zdb authority, a path that the path state
keeps as written names its last segment — the empty one when the path ends in `/`. -/
theorem getConnectionInfo_namespace_last (z : ZdbUrl) (hne : z.host ≠ "")
    (hh : ∀ c ∈ z.host.data, isHostNameChar c = true) (rest : List Char) (hr : PlainPath rest) :
    ∃ info, getConnectionInfo ("zdb://" ++ z.authority ++ ⟨'/' :: rest⟩) =
      .ok (info, (splitSlash [] rest).getLast?.map String.mk) := by
  have hpr : ∀ c ∈ '/' :: rest, isC0ControlOrSpace c = false := fun c hc => by
    rcases List.mem_cons.mp hc with rfl | hc
    · decide
    · exact printable_of_path (hr.1 c hc)
  have hp : (pathStart ('/' :: rest)).getLast? = (splitSlash [] rest).getLast?.map String.mk := by
    show (pathState [] [] rest).getLast? = _
    rw [pathState_plain rest hr.1 [] [] hr.2, List.nil_append, List.getLast?_map]
  exact ⟨_, by rw [getConnectionInfo_zdb z hne hh _ (by simp [isAuthorityEnd]) hpr, hp]⟩

/-- A trailing `/` after the namespace `n` names the empty namespace. -/
theorem getConnectionInfo_namespace_last_slash :
    (("h" : String) ≠ "" ∧ ∀ c ∈ "h".data, isHostNameChar c = true) ∧ PlainPath "n/".data ∧
      ∃ info, getConnectionInfo ("zdb://" ++ ZdbUrl.authority ⟨none, "h", none, none⟩ ++ ⟨'/' :: "n/".data⟩) =
        .ok (info, some "") :=
  ⟨⟨by decide, by decide⟩, by decide,
    getConnectionInfo_namespace_last ⟨none, "h", none, none⟩ (by decide) (by decide) _ (by decide)⟩

/-- **A trailing `/` selects the empty namespace**: `zdb://h/` and `zdb://h/n/` both name the
namespace `""`, and every connection the pool hands out sends `SELECT ""`. -/
theorem makeInner_trailing_slash {ε : Type} (query : Cmd → Except ε Unit) :
    (∃ s, makeInner "zdb://h/" (.ok ()) (.ok ()) = .ok s ∧
      s.pool.customizer.onAcquire query = ([["SELECT", ""]], query ["SELECT", ""])) ∧
    (∃ s, makeInner "zdb://h/n/" (.ok ()) (.ok ()) = .ok s ∧
      s.pool.customizer.onAcquire query = ([["SELECT", ""]], query ["SELECT", ""])) :=
  ⟨⟨_, rfl, rfl⟩, ⟨_, rfl, rfl⟩⟩

end Rfs.Store
