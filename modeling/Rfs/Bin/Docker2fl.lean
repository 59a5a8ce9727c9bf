import Rfs.Result

/-!
# Bin/Docker2fl — the converter's `run`, and the artifact it leaves behind

`docker2fl` converts a docker image into an flist.  `run` normalises the image reference (it
appends `:latest` when the name has no `:`), names the artifact after it (`fl_name`), creates the
artifact with `fungi::Writer::new`, parses the store router, creates a temporary directory and
converts; when the conversion fails it removes the artifact before it returns the error.

The steps `run` calls (the logger, the writer, `parse_router`, the temporary directory, the
conversion and `remove_file`) are outside the sources.  Each is modelled by its outcome
(`Steps`), and the file system by which paths exist (`World`).  A run ends in `Ok`, in an `Err`
that `?` returns, or in the panic of `expect` (`Exit`).

Two things go wrong.  A registry port is taken for a tag (`dockerImage_registry_port`).  And an
error of `parse_router` returns past the cleanup, leaving the artifact behind
(`run_router_error_keeps_artifact`).
-/

namespace Rfs.Docker2fl

/-! ## The reference and the artifact's name -/

/-- The reference `run` converts: the image name, with `:latest` appended when it holds no `:`
(`contains(':')`, read on the characters). -/
def dockerImage (imageName : String) : String :=
  if ':' ∈ imageName.data then imageName else imageName ++ ":latest"

/-- `fl_name` — the reference with every `:` and `/` replaced by `-`, then `.fl`. -/
def flName (dockerImage : String) : String :=
  ⟨dockerImage.data.map fun c => if c = ':' ∨ c = '/' then '-' else c⟩ ++ ".fl"

/-- **A registry port is taken for a tag**: a reference with a registry host and port is never
given `:latest`, whatever its path, since its `:` is the port's. -/
theorem dockerImage_registry_port (host port path : String) :
    dockerImage (host ++ ":" ++ port ++ "/" ++ path) = host ++ ":" ++ port ++ "/" ++ path :=
  if_pos (by simp)

/-! ## The file system -/

/-- Which paths exist. -/
def World := String → Bool

/-- The world with `p` created. -/
def World.create (w : World) (p : String) : World := fun q => decide (q = p) || w q

/-- The world with `p` removed. -/
def World.remove (w : World) (p : String) : World := fun q => !decide (q = p) && w q

@[simp] theorem World.create_self (w : World) (p : String) : w.create p p = true := by
  simp [World.create]

/-! ## The run -/

/-- What the steps `run` calls answer: the logger's `init`, `fungi::Writer::new` (which creates
the artifact), `parse_router`, `TempDir::new`, the conversion and `tokio::fs::remove_file`.
Their other effects are left out of the `World`: the temporary directory, which is removed again
when `run` drops it, and what the conversion writes to the stores and into the artifact. -/
structure Steps where
  loggerInit : Except String Unit
  writerNew : Except String Unit
  parseRouter : Except String Unit
  tempDir : Except String Unit
  convert : Except String Unit
  removeFile : Except String Unit

/-- How `run` ends. -/
inductive Exit where
  | ok
  | error (msg : String)
  | panic (msg : String)
deriving DecidableEq, Repr

/-- **`run`** — the exit and the world after it.  Each `?` returns its error as it is; the
cleanup runs only when the conversion fails, and its own error replaces the conversion's. -/
def run (imageName : String) (s : Steps) (w : World) : Exit × World :=
  match s.loggerInit with
  | .error e => (.error e, w)
  | .ok () =>
    let fl := flName (dockerImage imageName)
    match s.writerNew with
    | .error e => (.error e, w)
    | .ok () =>
      let w := w.create fl
      match s.parseRouter with
      | .error e => (.error e, w)
      | .ok () =>
        match s.tempDir with
        | .error _ => (.panic "failed to create tmp directory", w)
        | .ok () =>
          match s.convert with
          | .ok () => (.ok, w)
          | .error e =>
            match s.removeFile with
            | .error e' => (.error e', w)
            | .ok () => (.error e, w.remove fl)

/-- **An error of `parse_router` leaves the artifact behind**: its `?` returns after the writer
created the artifact and before the cleanup, whatever the later steps would have answered. -/
theorem run_router_error_keeps_artifact (imageName : String) (w : World) (e : String)
    (t c r : Except String Unit) :
    (run imageName ⟨.ok (), .ok (), .error e, t, c, r⟩ w).1 = .error e ∧
      (run imageName ⟨.ok (), .ok (), .error e, t, c, r⟩ w).2 (flName (dockerImage imageName)) = true :=
  ⟨rfl, World.create_self _ _⟩

end Rfs.Docker2fl
