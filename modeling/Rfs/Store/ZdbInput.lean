import Rfs.Store.ZdbUrl
import Rfs.Url.Accepted
import Rfs.Url.Segments

/-!
# Store/ZdbInput — what `get_connection_info` makes of any store URL

`Store/ZdbUrl` reads back a URL formed from its parts.  Here the URL is any string, as an
operator writes it, and what the store receives is what the parser made of it: the components
encoded (`Url/Accepted`), the path resolved segment by segment (`Url/Segments`).  Each result
holds for every input of its shape:

* `getConnectionInfo_blanks` — blanks around the URL, and tabs and newlines in it, change nothing.
* `getConnectionInfo_userinfo` — the host follows the *last* `@`; the user and the password are
  the userinfo split at its first `:`, each encoded.
* `getConnectionInfo_wellFormed`, `getConnectionInfo_namespace_notDot` — the namespace is always
  one segment, with no `/`, and never a dot segment.
* `getConnectionInfo_namespace_resolved` — the namespace of any path is the last segment of that
  path resolved segment by segment.
* `getConnectionInfo_unix_resolved` — with no authority, the socket path is the path resolved the
  same way.
-/

namespace Rfs.Store

open Url

/-! ## Blanks in the URL -/

/-- **Blanks around the store URL, and tabs and newlines anywhere in it, change nothing**: a URL
with C0 controls or spaces before and after it, whose other characters are another URL's up to
tabs and newlines, gives the same connection and namespace. -/
theorem getConnectionInfo_blanks {s t : String} (pre suf : List Char)
    (hps : ∀ c ∈ pre ++ suf, isC0ControlOrSpace c = true)
    (hst : s.data.filter (!isTabOrNewline ·) = t.data.filter (!isTabOrNewline ·)) :
    getConnectionInfo ⟨pre ++ s.data ++ suf⟩ = getConnectionInfo t := by
  unfold getConnectionInfo
  rw [parse_blanks pre suf hps hst]

/-- A space before, a newline after, and a tab inside the namespace. -/
theorem getConnectionInfo_blanks_tab :
    getConnectionInfo ⟨[' '] ++ "zdb://h/n\ts".data ++ ['\n']⟩ = getConnectionInfo "zdb://h/ns" :=
  getConnectionInfo_blanks [' '] ['\n'] (by decide) (by decide)

/-! ## The authority state on any authority -/

/-- An authority none of whose characters ends it, then a path that starts with one: the
authority state reads exactly the authority, and the path state the path. -/
theorem takeDrop_authority {auth path : List Char} (hauth : ∀ c ∈ auth, isAuthorityEnd c = false)
    (hpath : ∀ c ∈ path.head?, isAuthorityEnd c = true) :
    (auth ++ path).takeWhile (!isAuthorityEnd ·) = auth ∧
      (auth ++ path).dropWhile (!isAuthorityEnd ·) = path := by
  have h : ∀ c ∈ auth, (!isAuthorityEnd c) = true := fun c hc => by simp [hauth c hc]
  rw [List.takeWhile_append_of_pos h, List.dropWhile_append_of_pos h]
  cases path with
  | nil => simp
  | cons c _ => simp [hpath c rfl]

/-! ## Credentials, as written -/

/-- The userinfo split at its first `:` — the whole of it when there is none. -/
theorem splitUserinfo_eq (ui : List Char) :
    splitUserinfo ui = (percentEncode AsciiSet.userinfo (ui.takeWhile (· != ':')),
      percentEncode AsciiSet.userinfo ((ui.dropWhile (· != ':')).drop 1)) := by
  unfold splitUserinfo
  rw [List.span_eq_take_drop]
  split
  · rename_i heq
    simp only [Prod.mk.injEq] at heq
    obtain ⟨rfl, h⟩ := heq
    simp [h]
  · rename_i snd hne heq
    simp only [Prod.mk.injEq] at heq
    obtain ⟨rfl, h⟩ := heq
    rcases snd with _ | ⟨c, rest⟩
    · simp [h]
    · have hc := List.head_dropWhile_not (· != ':') ui (by simp [h])
      simp only [h, List.head_cons, bne_eq_false_iff_eq] at hc
      exact absurd (hc ▸ rfl) (hne rest)

/-- **The authority state on a userinfo and a host**: the host is what follows the last `@`, so
the userinfo may itself hold `@`. -/
theorem parseAuthority_userinfo {ui : List Char} (hui : ∀ c ∈ ui, isAuthorityEnd c = false)
    {host : List Char} (hne : host ≠ []) (hh : ∀ c ∈ host, isHostNameChar c = true)
    (path : List Char) (hpath : ∀ c ∈ path.head?, isAuthorityEnd c = true) :
    parseAuthority "zdb" (ui ++ '@' :: host ++ path) =
      .ok ⟨"zdb", ⟨(splitUserinfo ui).1⟩, ⟨(splitUserinfo ui).2⟩, some (.domain ⟨host⟩), none,
        .segments (pathStart path)⟩ := by
  have hhc := fun c hc => isHostNameChar_facts (hh c hc)
  have hauth : ∀ c ∈ ui ++ '@' :: host, isAuthorityEnd c = false :=
    List.forall_mem_append.mpr ⟨hui, List.forall_mem_cons.mpr ⟨rfl, fun c hc => (hhc c hc).1.2.1⟩⟩
  have hat : '@' ∉ host := fun hc => (hhc _ hc).1.2.2.1 rfl
  obtain ⟨htake, hdrop⟩ := takeDrop_authority hauth hpath
  have hsplit : splitHostPort false host = (host, none) := by
    simpa [splitHostPort] using
      splitHostPort_append [] fun c hc => ⟨(hhc c hc).1.2.2.2.1, (hhc c hc).1.2.2.2.2⟩
  have hhost : host.isEmpty = false := by cases host; exact absurd rfl hne; rfl
  simp only [parseAuthority, htake, hdrop]
  simp [splitAtLastAt_append hat, hsplit, parseOpaqueHost_hostName hne hh, hhost, parsePort]

/-- `None` for an empty component, as `get_connection_info` and `Url::password` answer. -/
theorem nonEmpty_some (s : String) :
    (if s.isEmpty then none else some s) = (some s).filter fun t => !t.isEmpty := by
  cases h : s.isEmpty <;> simp [Option.filter, h]

/-- **The credentials the store receives from a URL's userinfo**: the host is what follows the
*last* `@`, so every earlier `@` belongs to the userinfo; the user is the userinfo up to its first
`:` and the password the rest, each percent-encoded, and an empty one is none. -/
theorem getConnectionInfo_userinfo (ui : List Char)
    (hui : ∀ c ∈ ui, isC0ControlOrSpace c = false ∧ isAuthorityEnd c = false)
    (host : String) (hne : host ≠ "") (hh : ∀ c ∈ host.data, isHostNameChar c = true)
    (path : List Char) (hpath : ∀ c ∈ path.head?, isAuthorityEnd c = true)
    (hpr : ∀ c ∈ path, isC0ControlOrSpace c = false) :
    (getConnectionInfo ("zdb://" ++ ⟨ui⟩ ++ "@" ++ host ++ ⟨path⟩)).map (fun r => r.1) =
      .ok ⟨.tcp host 9900, ⟨0,
        (some (encode AsciiSet.userinfo ⟨ui.takeWhile (· != ':')⟩)).filter fun s => !s.isEmpty,
        (some (encode AsciiSet.userinfo ⟨(ui.dropWhile (· != ':')).drop 1⟩)).filter
          fun s => !s.isEmpty⟩⟩ := by
  have hne' : host.data ≠ [] := fun h => hne (String.ext h)
  have hs : "zdb://" ++ ⟨ui⟩ ++ "@" ++ host ++ ⟨path⟩ =
      ⟨"zdb://".data ++ (ui ++ '@' :: host.data ++ path)⟩ := String.ext (by simp)
  have hprint : ∀ c ∈ ui ++ '@' :: host.data ++ path, isC0ControlOrSpace c = false :=
    List.forall_mem_append.mpr ⟨List.forall_mem_append.mpr ⟨fun c hc => (hui c hc).1,
      List.forall_mem_cons.mpr ⟨rfl, fun c hc => (isHostNameChar_facts (hh c hc)).1.1⟩⟩, hpr⟩
  unfold getConnectionInfo
  rw [hs, parse_zdb hprint, parseAuthority_userinfo (fun c hc => (hui c hc).2) hne' hh path hpath,
    splitUserinfo_eq]
  simp only [Except.map, Url.Host.toString, Url.password?, encode, nonEmpty_some, List.drop_one]
  rfl

/-- A password holding `@` and `:` reaches the store percent-encoded. -/
theorem getConnectionInfo_userinfo_at :
    (getConnectionInfo ("zdb://" ++ ⟨"u:p@ss:x".data⟩ ++ "@" ++ "hub" ++ ⟨"/ns".data⟩)).map
      (fun r => r.1) = .ok ⟨.tcp "hub" 9900, ⟨0, some "u", some "p%40ss%3Ax"⟩⟩ :=
  (getConnectionInfo_userinfo "u:p@ss:x".data (by decide) "hub" (by decide) (by decide) "/ns".data
    (by decide) (by decide)).trans rfl

/-! ## The namespace, whatever the path -/

/-- **What `get_connection_info` returns**: the credentials of the URL the parser returned, each
`None` when empty, and a namespace only as the last segment of its path. -/
theorem getConnectionInfo_eq_ok {s : String} {info : ConnectionInfo} {ns : Option String}
    (h : getConnectionInfo s = .ok (info, ns)) :
    ∃ u, parse s = .ok u ∧
      info.redis = ⟨0, if u.username.isEmpty then none else some u.username, u.password?⟩ ∧
      ∀ n ∈ ns, ∃ ss, u.path = .segments ss ∧ ss.getLast? = some n := by
  unfold getConnectionInfo at h
  split at h
  · cases h
  · rename_i u hu
    refine ⟨u, hu, ?_⟩
    rcases hh : u.host with _ | host <;> simp only [hh, Except.ok.injEq, Prod.mk.injEq] at h <;>
      obtain ⟨rfl, rfl⟩ := h
    · exact ⟨rfl, nofun⟩
    · refine ⟨rfl, fun n hn => ?_⟩
      obtain ⟨ss, hss, hn⟩ := Option.mem_bind_iff.mp hn
      exact ⟨ss, path_of_pathSegments hss, hn⟩

/-- **Every namespace is one path segment, whatever the URL**: the namespace
`get_connection_info` returns holds no `/` and no character of the path set, and the user and
the password it returns no character of the userinfo set. -/
theorem getConnectionInfo_wellFormed {s : String} {info : ConnectionInfo} {ns : Option String}
    (h : getConnectionInfo s = .ok (info, ns)) :
    (∀ n ∈ ns, SegmentChars n.data) ∧
      (∀ n ∈ info.redis.username, ∀ c ∈ n.data, AsciiSet.userinfo c = false) ∧
      ∀ p ∈ info.redis.password, ∀ c ∈ p.data, AsciiSet.userinfo c = false := by
  obtain ⟨u, hu, hred, hns⟩ := getConnectionInfo_eq_ok h
  obtain ⟨huser, hpass⟩ := parse_userinfo hu
  have hcred : ∀ x : String, (∀ c ∈ x.data, AsciiSet.userinfo c = false) →
      ∀ n ∈ (if x.isEmpty then none else some x), ∀ c ∈ n.data, AsciiSet.userinfo c = false :=
    fun x hx n hn => Option.mem_some_iff.mp (Option.mem_ite_none_left.mp hn).2 ▸ hx
  rw [hred]
  refine ⟨fun n hn => ?_, hcred _ huser, hcred _ hpass⟩
  obtain ⟨ss, hss, hl⟩ := hns n hn
  obtain ⟨cs, rfl⟩ := parse_segments hu hss
  exact pathStart_segments cs n (List.mem_of_getLast?_eq_some hl)

/-- An escaped `/` in the namespace stays escaped. -/
theorem getConnectionInfo_wellFormed_escaped :
    ∃ info, getConnectionInfo "zdb://u:p@ss@hub/a/b%2Fc" = .ok (info, some "b%2Fc") ∧
      SegmentChars "b%2Fc".data :=
  ⟨_, rfl, (@getConnectionInfo_wellFormed "zdb://u:p@ss@hub/a/b%2Fc" _ _ rfl).1 _ rfl⟩

/-- **The namespace of any path**: whatever follows a zdb authority — dot segments, escapes,
characters the path set encodes, a query or a fragment — the namespace is the last segment of the
path resolved segment by segment. -/
theorem getConnectionInfo_namespace_resolved (z : ZdbUrl) (hne : z.host ≠ "")
    (hh : ∀ c ∈ z.host.data, isHostNameChar c = true) (rest : List Char)
    (hpr : ∀ c ∈ rest, isC0ControlOrSpace c = false) :
    ∃ info, getConnectionInfo ("zdb://" ++ z.authority ++ ⟨'/' :: rest⟩) = .ok (info,
      (resolveSegments [] (splitSlash [] (percentEncode AsciiSet.path (pathPart rest)))).getLast?) := by
  have hpr' : ∀ c ∈ '/' :: rest, isC0ControlOrSpace c = false := List.forall_mem_cons.mpr ⟨rfl, hpr⟩
  rw [getConnectionInfo_zdb z hne hh _ (by simp [isAuthorityEnd]) hpr']
  exact ⟨_, by rw [show pathStart ('/' :: rest) = pathState [] [] rest from rfl,
    pathState_eq_resolve]⟩

/-- Dot segments, an escaped `..` and a query: the namespace is `c`. -/
theorem getConnectionInfo_namespace_resolved_dots :
    ∃ info, getConnectionInfo ("zdb://" ++ ZdbUrl.authority ⟨none, "h", none, none⟩ ++
      ⟨'/' :: "a/./b/../%2e%2E/c?q".data⟩) = .ok (info, some "c") := by
  obtain ⟨info, h⟩ := getConnectionInfo_namespace_resolved ⟨none, "h", none, none⟩ (by decide)
    (by decide) "a/./b/../%2e%2E/c?q".data (by decide)
  exact ⟨info, h.trans rfl⟩

/-- **No namespace is a dot segment**: whatever the URL, the namespace `get_connection_info`
returns is never `.` or `..`, in any spelling such as `%2e` or `.%2E` — the path state has
resolved them before the last segment is taken. -/
theorem getConnectionInfo_namespace_notDot {s : String} {info : ConnectionInfo} {n : String}
    (h : getConnectionInfo s = .ok (info, some n)) : NotDot n := by
  obtain ⟨u, hu, -, hns⟩ := getConnectionInfo_eq_ok h
  obtain ⟨ss, hss, hl⟩ := hns n rfl
  exact parse_notDot hu hss n (List.mem_of_getLast?_eq_some hl)

/-- A trailing `%2e` is resolved to the empty namespace. -/
theorem getConnectionInfo_namespace_notDot_escaped :
    ∃ info, getConnectionInfo "zdb://h/n/%2e" = .ok (info, some "") ∧ NotDot "" :=
  ⟨_, rfl, @getConnectionInfo_namespace_notDot "zdb://h/n/%2e" _ _ rfl⟩

/-! ## A Unix socket, whatever the path -/

/-- **The socket path of a URL with no authority**: `zdb://` followed by any absolute path names
the Unix socket at that path cut at `?` or `#`, encoded, and resolved segment by segment, with no
credentials and no namespace. -/
theorem getConnectionInfo_unix_resolved (rest : List Char)
    (hpr : ∀ c ∈ rest, isC0ControlOrSpace c = false) :
    getConnectionInfo ("zdb://" ++ ⟨'/' :: rest⟩) =
      .ok (⟨.unix ⟨(resolveSegments [] (splitSlash [] (percentEncode AsciiSet.path
        (pathPart rest)))).flatMap fun s => '/' :: s.data⟩, ⟨0, none, none⟩⟩, none) := by
  have hpr' : ∀ c ∈ '/' :: rest, isC0ControlOrSpace c = false := List.forall_mem_cons.mpr ⟨rfl, hpr⟩
  have hp : parse ("zdb://" ++ ⟨'/' :: rest⟩) =
      .ok ⟨"zdb", "", "", none, none, .segments (pathState [] [] rest)⟩ := by
    rw [show "zdb://" ++ ⟨'/' :: rest⟩ = ⟨"zdb://".data ++ '/' :: rest⟩ from rfl,
      parse_zdb hpr']
    rfl
  unfold getConnectionInfo
  rw [hp, pathState_eq_resolve]
  rfl

/-- A socket path with a dot segment and a query: the store connects to `/zdb.sock`. -/
theorem getConnectionInfo_unix_resolved_dots :
    getConnectionInfo ("zdb://" ++ ⟨'/' :: "run/../zdb.sock?x".data⟩) =
      .ok (⟨.unix "/zdb.sock", ⟨0, none, none⟩⟩, none) :=
  (getConnectionInfo_unix_resolved "run/../zdb.sock?x".data (by decide)).trans rfl

end Rfs.Store
