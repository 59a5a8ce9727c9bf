import Rfs.Url.Accepted

/-!
# Url/Segments — the path state, read segment by segment

The path state reads the path one character at a time: it encodes each character into a buffer,
ends the segment at `/`, and ends the path at `?`, `#` or the end of the input.  Read segment by
segment, the same state is: cut the input at its first `?` or `#` (`pathPart`), encode it with
the path set, split it at `/`, and end each segment in turn with `flushSegment`, the last one as
the end of the path (`resolveSegments`).

`pathState_eq_resolve` says the two readings agree on every input, from any path and buffer.  It
rests on one fact about the encoding: it never writes a `/` for a character that is not one, so
splitting before or after encoding is the same (`splitSlash_append`).
-/

namespace Rfs.Url

/-! ## The segment-level reading -/

/-- The input of the path state up to its query or fragment. -/
def pathPart (cs : List Char) : List Char := cs.takeWhile fun c => c != '?' && c != '#'

/-- **The path, resolved segment by segment**: every segment ends with `flushSegment`, the last
one as the end of the path. -/
def resolveSegments (path : List String) : List (List Char) → List String
  | [] => path
  | [seg] => flushSegment path seg true
  | seg :: segs => resolveSegments (flushSegment path seg false) segs

theorem resolveSegments_cons_cons (path : List String) (seg seg' : List Char)
    (segs : List (List Char)) :
    resolveSegments path (seg :: seg' :: segs) =
      resolveSegments (flushSegment path seg false) (seg' :: segs) := rfl

/-- Splitting at `/` always yields a segment. -/
theorem splitSlash_ne_nil : ∀ (buf cs : List Char), splitSlash buf cs ≠ []
  | _, [] => nofun
  | buf, c :: cs => by
    unfold splitSlash
    split_ifs
    · exact List.cons_ne_nil _ _
    · exact splitSlash_ne_nil _ cs

/-- Characters with no `/` among them join the current segment. -/
theorem splitSlash_append {xs : List Char} (h : '/' ∉ xs) :
    ∀ (buf ys : List Char), splitSlash buf (xs ++ ys) = splitSlash (buf ++ xs) ys := by
  induction xs with
  | nil => simp
  | cons x xs ih =>
    intro buf ys
    have hx : x ≠ '/' := fun e => h (e ▸ .head _)
    rw [List.cons_append, splitSlash, if_neg hx, ih (fun m => h (.tail _ m)), List.append_assoc,
      List.singleton_append]

/-- The encoding of a character other than `/` holds no `/`. -/
theorem slash_not_mem_percentEncodeChar {c : Char} (hc : c ≠ '/') :
    '/' ∉ percentEncodeChar AsciiSet.path c := fun h =>
  (segmentChars_percentEncodeChar hc _ h).2 rfl

/-! ## The two readings agree -/

/-- **The path state is the path resolved segment by segment**: from any path and buffer, reading
the input one character at a time gives what cutting it at `?` or `#`, encoding it, splitting it
at `/` and ending each segment in turn gives. -/
theorem pathState_eq_resolve : ∀ (cs : List Char) (path : List String) (buf : List Char),
    pathState path buf cs =
      resolveSegments path (splitSlash buf (percentEncode AsciiSet.path (pathPart cs)))
  | [], _, _ => rfl
  | c :: cs, path, buf => by
    unfold pathState
    split_ifs with hsl hqf
    · subst hsl
      obtain ⟨seg, segs, hss⟩ := List.exists_cons_of_ne_nil
        (splitSlash_ne_nil [] (percentEncode AsciiSet.path (pathPart cs)))
      have hpart : pathPart ('/' :: cs) = '/' :: pathPart cs := List.takeWhile_cons_of_pos rfl
      rw [pathState_eq_resolve cs, hpart, percentEncode_cons, percentEncodeChar_of_not_mem rfl,
        List.singleton_append, splitSlash, if_pos rfl, hss, resolveSegments_cons_cons]
    · have hpart : pathPart (c :: cs) = [] := List.takeWhile_cons_of_neg <| by
        rcases (by simpa using hqf : c = '?' ∨ c = '#') with rfl | rfl <;> decide
      rw [hpart]
      rfl
    · have hpart : pathPart (c :: cs) = c :: pathPart cs :=
        List.takeWhile_cons_of_pos (by simpa using hqf)
      rw [pathState_eq_resolve cs, hpart, percentEncode_cons,
        splitSlash_append (slash_not_mem_percentEncodeChar hsl)]

end Rfs.Url
