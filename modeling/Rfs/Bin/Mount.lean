import Rfs.Result
import Mathlib.Data.List.Forall2

/-!
# Bin/Mount — the `rfs` binary: its checks, the daemon's wait, and the route loop

`main` refuses a target that is already a mount point, then either runs `app` in the foreground
or daemonizes.  In the daemon's parent, `wait_child` polls the target up to five times and
returns as soon as it is mounted; otherwise it sends `SIGTERM` to the pid the pid file holds and
exits with status `1`.  `app` opens the flist, makes one store per route it lists, in order, and
mounts.

The calls `main` and `app` make (the logger, `mountpoint -q`, the temporary pid file,
`daemonize`, the flist reader, `store::make`, the mount) are outside the sources: each is
modelled by its answer.  An `anyhow` error is modelled by its outermost context.

* `routeLoop_eq_ok` / `routeLoop_eq_error` — `app` registers every route in order, or fails at
  the first route whose store cannot be made, naming its URL.
-/

namespace Rfs.Mount

/-! ## How the binary ends -/

/-- How `main` ends: `Ok`, an `Err` by its context, `std::process::exit`, or a panic. -/
inductive Exit where
  | ok
  | error (msg : String)
  | exit (code : Nat)
  | panic (msg : String)
deriving DecidableEq, Repr

/-- `.context(msg)?` on an `anyhow` result. -/
def context {α : Type} (msg : String) : Except String α → Except String α
  | .ok a => .ok a
  | .error _ => .error msg

/-! ## `wait_child`

The loop `for _ in 0..5` is the fuel of `pollLoop`; its `i`-th poll is answered by `poll i`, an
error by its `Debug` rendering, which `unwrap` prints. -/

/-- The polling loop: `Returned` as soon as a poll says the target is mounted, the panic of
`unwrap` on a poll that fails, and `none` after `n` polls that all said no. -/
def pollLoop (poll : Nat → Except String Bool) : Nat → Nat → Option Exit
  | _, 0 => none
  | i, n + 1 =>
    match poll i with
    | .ok true => some .ok
    | .ok false => pollLoop poll (i + 1) n
    | .error e => some (.panic ("called `Result::unwrap()` on an `Err` value: " ++ e))

/-- **`wait_child`** — five polls; then the pid the pid file holds, if it parses, is sent
`SIGTERM` and the parent exits with status `1`.  Returns the exit and the pids signalled.  The
buffer is what `read_to_string` left in it, read or not. -/
def waitChild (poll : Nat → Except String Bool) (pidBuf : String) (parsePid : String → Option Int) :
    Exit × List Int :=
  match pollLoop poll 0 5 with
  | some r => (r, [])
  | none =>
    match parsePid pidBuf with
    | some v => (.exit 1, [v])
    | none => (.exit 1, [])

/-! ## `app` and its route loop -/

/-- A route of the flist: the first and last key byte it serves (`start` and `end`), and the
URL of its store. -/
structure Route where
  start : UInt8
  stop : UInt8
  url : String
deriving DecidableEq, Repr

/-- The URL between single quotes (code point `39`), as `format!("'{}'")` writes it. -/
def quoted (s : String) : String := ⟨Char.ofNat 39 :: s.data ++ [Char.ofNat 39]⟩

/-- The context of a store that cannot be made. -/
def storeError (url : String) : String := "failed to initialize store " ++ quoted url

/-- Where a cut of a nonempty list falls: before its head, or inside its tail. -/
theorem exists_cons_eq_append {α : Type} {a : α} {l : List α} {P : List α → α → List α → Prop} :
    (∃ pre r post, a :: l = pre ++ r :: post ∧ P pre r post) ↔
      P [] a l ∨ ∃ pre r post, l = pre ++ r :: post ∧ P (a :: pre) r post := by
  constructor
  · rintro ⟨_ | ⟨b, pre⟩, r, post, h, hp⟩ <;> obtain ⟨rfl, rfl⟩ := List.cons.inj h
    exacts [.inl hp, .inr ⟨pre, r, post, rfl, hp⟩]
  · rintro (hp | ⟨pre, r, post, rfl, hp⟩)
    exacts [⟨[], a, l, rfl, hp⟩, ⟨a :: pre, r, post, rfl, hp⟩]

section RouteLoop

variable {σ : Type} (make : String → Except String σ)

/-- **The route loop of `app`** — for each route, in order, the store made from its URL is added
to the router with the route's range; the first store that cannot be made ends the loop. -/
def routeLoop : List Route → List (UInt8 × UInt8 × σ) → Except String (List (UInt8 × UInt8 × σ))
  | [], router => .ok router
  | r :: rs, router =>
    match make r.url with
    | .error _ => .error (storeError r.url)
    | .ok store => routeLoop rs (router ++ [(r.start, r.stop, store)])

/-- **`app` registers every route, in order**: the loop returns `Ok` exactly when every route's
store is made, and the router then holds one entry per route, with its range and its store. -/
theorem routeLoop_eq_ok : ∀ (rs : List Route) (acc router : List (UInt8 × UInt8 × σ)),
    routeLoop make rs acc = .ok router ↔
      ∃ stores, List.Forall₂ (fun r s => make r.url = .ok s) rs stores ∧
        router = acc ++ List.zipWith (fun r s => (r.start, r.stop, s)) rs stores
  | [], acc, router => by simp [routeLoop, eq_comm]
  | r :: rs, acc, router => by
    rcases hm : make r.url with e | s
    · simp only [routeLoop, hm, List.forall₂_cons_left_iff]
      refine ⟨(fun h => by cases h), fun ⟨_, ⟨_, _, hs, _⟩, _⟩ => ?_⟩
      cases hs
    · simp only [routeLoop, hm, routeLoop_eq_ok rs, List.forall₂_cons_left_iff]
      constructor
      · rintro ⟨stores, hf, rfl⟩
        exact ⟨s :: stores, ⟨s, stores, rfl, hf, rfl⟩, by simp⟩
      · rintro ⟨_, ⟨s', stores, hs', hf, rfl⟩, rfl⟩
        cases hs'
        exact ⟨stores, hf, by simp⟩

/-- **`app` fails at the first route whose store cannot be made**, and names its URL. -/
theorem routeLoop_eq_error : ∀ (rs : List Route) (acc : List (UInt8 × UInt8 × σ)) (msg : String),
    routeLoop make rs acc = .error msg ↔
      ∃ pre r post e, rs = pre ++ r :: post ∧ (∀ p ∈ pre, ∃ s, make p.url = .ok s) ∧
        make r.url = .error e ∧ msg = storeError r.url
  | [], acc, msg => by simp [routeLoop]
  | r :: rs, acc, msg => by
    simp only [exists_and_left, exists_cons_eq_append, List.forall_mem_cons]
    rcases hm : make r.url with e | s <;>
      simp only [routeLoop, hm, routeLoop_eq_error rs, eq_comm, Except.error.injEq, Except.ok.injEq,
        List.not_mem_nil, IsEmpty.forall_iff, implies_true, exists_and_left, exists_and_right,
        exists_eq', true_and, reduceCtorEq, exists_false, false_and, and_false, exists_const, or_false,
        false_or]

end RouteLoop

/-- **`app`** — open the flist, list its routes, make their stores, mount with the router. -/
def app {σ : Type} (reader : Except String Unit) (routes : Except String (List Route))
    (make : String → Except String σ) (mount : List (UInt8 × UInt8 × σ) → Except String Unit) :
    Except String Unit := do
  context "failed to initialize metadata database" reader
  let rs ← context "failed to get store routes" routes
  let router ← routeLoop make rs []
  mount router

/-! ## `main` -/

/-- `daemonize::Outcome`: the parent's or the child's side, each with its result. -/
inductive Outcome where
  | parent (r : Except String Unit)
  | child (r : Except String Unit)

/-- What the calls of `main` answer before `app`: the logger, `mountpoint -q` on the target,
the temporary pid file, the working directory, the log file (created and cloned), `execute`, the
parent's polls and pid buffer, and the runtime. -/
structure Steps where
  loggerInit : Except String Unit
  mountpoint : Except String Bool
  pidFile : Except String Unit
  currentDir : Except String Unit
  logFile : Except String Unit
  execute : Outcome
  poll : Nat → Except String Bool
  pidBuf : String
  runtime : Except String Unit

/-- An `anyhow` result as an exit. -/
def exitOf : Except String Unit → Exit
  | .ok () => .ok
  | .error e => .error e

/-- **`main`** — the exit and the pids signalled.  `daemon` and `log` are the options of the same
names; `appResult` is what `app` returns. -/
def main (daemon : Bool) (log : Option String) (parsePid : String → Option Int) (s : Steps)
    (appResult : Except String Unit) : Exit × List Int :=
  match s.loggerInit, context "failed to check mountpoint" s.mountpoint with
  | .error e, _ => (.error e, [])
  | .ok (), .error e => (.error e, [])
  | .ok (), .ok true => (.exit 1, [])
  | .ok (), .ok false =>
    let runApp : Exit × List Int :=
      match s.runtime with
      | .error e => (.error e, [])
      | .ok () => (exitOf appResult, [])
    if daemon then
      match s.pidFile, s.currentDir, (if log.isSome then s.logFile else .ok ()) with
      | .error e, _, _ => (.error e, [])
      | .ok (), .error e, _ => (.error e, [])
      | .ok (), .ok (), .error e => (.error e, [])
      | .ok (), .ok (), .ok () =>
        match s.execute with
        | .parent (.ok ()) => waitChild s.poll s.pidBuf parsePid
        | .parent (.error e) => (.error ("failed to daemonize: " ++ e), [])
        | .child _ => runApp
    else runApp
end Rfs.Mount
