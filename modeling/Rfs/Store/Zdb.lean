import Rfs.Url.Parse
import Rfs.Result

/-!
# Store/Zdb — the zdb store of `store/zdb.rs`

`get_connection_info` turns a store URL into redis connection parameters: a TCP address
(port `9900` by default) when the URL has a host, a Unix socket at the URL's path when it has
none, and a namespace — the *last* path segment.  `make_inner` moves the URL's password out of
the connection parameters into the pool's connection customizer `WithNamespace`, whose
`on_acquire` selects the namespace on every connection the pool hands out, unless there is
none or it is `default`.

A connection is modelled by what it answers to a command; `on_acquire` returns the commands it
sent with the reply.  `ZdbStore::get` and `set` run over a `Backend`: whether the pool yields a
connection, whether a command's round trip on it succeeds, and the namespace the server holds —
which `SET` changes and `GET` reads.
-/

namespace Rfs.Store

/-! ## Connection parameters -/

/-- `redis::ConnectionAddr`. -/
inductive ConnectionAddr where
  | tcp (host : String) (port : UInt16)
  | unix (path : String)
deriving DecidableEq, Repr

/-- `redis::RedisConnectionInfo`. -/
structure RedisConnectionInfo where
  db : Int
  username : Option String
  password : Option String
deriving DecidableEq, Repr

/-- `redis::ConnectionInfo`. -/
structure ConnectionInfo where
  addr : ConnectionAddr
  redis : RedisConnectionInfo
deriving DecidableEq, Repr

/-- `store::Error`, as the zdb store produces it: the two variants `zdb.rs` names, the
`url::ParseError` that `?` converts, and an `anyhow` error, by its context. -/
inductive Error where
  | keyNotFound
  | invalidBlob
  | url (e : Url.ParseError)
  | other (context : String)
deriving DecidableEq, Repr

/-- **`get_connection_info`** — the address from the host (or the path, without a host), the
namespace from the last path segment, the credentials from the userinfo. -/
def getConnectionInfo (s : String) : Except Error (ConnectionInfo × Option String) :=
  match Url.parse s with
  | .error e => .error (.url e)
  | .ok u =>
    let (address, ns) : ConnectionAddr × Option String :=
      match u.host with
      | some host => (.tcp host.toString (u.port.getD 9900), u.pathSegments.bind List.getLast?)
      | none => (.unix u.pathStr, none)
    .ok (⟨address, ⟨0, if u.username.isEmpty then none else some u.username, u.password?⟩⟩, ns)

/-! ## The namespace customizer -/

/-- `WithNamespace` — the namespace to select (the source's `namespace`) and its password. -/
structure WithNamespace where
  ns : Option String
  password : Option String
deriving DecidableEq, Repr

/-- A redis command, by its arguments. -/
abbrev Cmd := List String

/-- **`on_acquire`** — `SELECT ns [password]` unless there is no namespace or it is `default`;
the commands sent, and the result, which is the reply. -/
def WithNamespace.onAcquire {ε : Type} (w : WithNamespace) (query : Cmd → Except ε Unit) :
    List Cmd × Except ε Unit :=
  match w.ns with
  | some ns =>
    if ns ≠ "default" then
      let c := ["SELECT", ns] ++ w.password.toList
      ([c], query c)
    else ([], .ok ())
  | none => ([], .ok ())

/-! ## The store -/

/-- The pool `make_inner` builds: its size, its customizer, and the connection parameters it
connects with. -/
structure PoolConfig where
  maxSize : Nat
  customizer : WithNamespace
  info : ConnectionInfo
deriving DecidableEq, Repr

/-- `ZdbStore` — its URL and its pool. -/
structure ZdbStore where
  url : String
  pool : PoolConfig
deriving DecidableEq, Repr

/-- **`make_inner`** — the password is taken out of the connection parameters and given to the
customizer; building the manager and the pool may fail, each with its context. -/
def makeInner (url : String) (manager pool : Except String Unit) : Except Error ZdbStore := do
  let (info, ns) ← getConnectionInfo url
  let customizer : WithNamespace := ⟨ns, info.redis.password⟩
  let info := { info with redis := { info.redis with password := none } }
  if manager.toBool = false then throw (.other "failed to create redis connection manager")
  if pool.toBool = false then throw (.other "failed to create connection pool")
  pure ⟨url, ⟨20, customizer, info⟩⟩

/-- A zdb namespace as the server holds it: the blob stored under each key. -/
def Server := List UInt8 → Option (List UInt8)

/-- The namespace after `SET key blob`. -/
def Server.write (srv : Server) (key blob : List UInt8) : Server :=
  fun k => if k = key then some blob else srv k

@[simp] theorem Server.write_self (srv : Server) (key blob : List UInt8) :
    srv.write key blob key = some blob := if_pos rfl

/-- What a command meets: a connection from the pool (or the pool's error), a round trip on it
(or the connection's error), and the namespace the server holds. -/
structure Backend where
  connect : Except String Unit
  link : Except String Unit
  server : Server

/-- `.context(msg)?` on an `anyhow` result. -/
def context {α : Type} (msg : String) : Except String α → Except Error α
  | .ok a => .ok a
  | .error _ => .error (.other msg)

/-- **`ZdbStore::set`** — the result, and the backend after it: `SET` stores the blob under the
key when its round trip succeeds, and a failed call leaves the server as it was. -/
def ZdbStore.set (b : Backend) (key blob : List UInt8) : Except Error Unit × Backend :=
  match b.connect, b.link with
  | .error _, _ => (.error (.other "failed to get connection"), b)
  | .ok (), .error _ => (.error (.other "failed to set blob"), b)
  | .ok (), .ok () => (.ok (), { b with server := b.server.write key blob })

end Rfs.Store
