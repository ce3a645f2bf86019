import Stencil.Error

/-!
# Where output goes

A run writes chunks to a sink. A sink may refuse a chunk, and then the run ends. A refusal says
nothing about its reason, so what a writer of bytes gives as the reason is kept beside it.

* `Chunk`: a text that is written, and where in the template it comes from
* `Sink`: what can take chunks
* `Buffer`: takes everything
* `Writer`: takes a limited number of bytes, perhaps in several calls
* `WrappedWriter`: takes chunks for a writer, and keeps the reason of its last failure
-/

namespace Stencil

/-- What a chunk comes from. -/
inductive Origin where
  /-- Literal text of the template. -/
  | literal
  /-- The value of an expression. -/
  | value
  deriving DecidableEq, Repr

/-- A text that is written. -/
structure Chunk where
  origin : Origin
  text : String
  deriving DecidableEq, Repr

/-- What can take chunks. A part of a chunk that is not taken may have been taken all the same. -/
class Sink (σ : Type) where
  /-- Takes a chunk. -/
  put : σ → Chunk → σ × Except FormatError Unit

/-- A text that grows without limit. -/
structure Buffer where
  text : String := ""
  deriving DecidableEq, Repr

instance : Sink Buffer where
  put b chunk := ({ b with text := b.text ++ chunk.text }, .ok ())

/-! ## Writers of bytes -/

/-- A place with room for a number of bytes. -/
structure Writer where
  /-- The bytes that were taken. -/
  taken : ByteArray := ByteArray.empty
  /-- How many more bytes there is room for. -/
  room : Nat
  /-- The reason given when there is no more room. -/
  reason : String

namespace Writer

/-- One call: takes as many of some bytes as there is room for, and tells how many. It fails if
there is no room at all. -/
def write (w : Writer) (bytes : ByteArray) : Writer × Except String Nat :=
  if w.room = 0 then (w, .error w.reason)
  else
    let count := min bytes.size w.room
    ({ w with taken := w.taken ++ bytes.extract 0 count, room := w.room - count }, .ok count)

/-- Takes all of some bytes, with as many calls as it needs. Without bytes there is no call. -/
def writeAll (w : Writer) (bytes : ByteArray) : Writer × Except String Unit :=
  if bytes.size = 0 then (w, .ok ())
  else
    match w.write bytes with
    | (w, .error reason) => (w, .error reason)
    | (w, .ok 0) => (w, .error "failed to write whole buffer")
    | (w, .ok (count + 1)) => w.writeAll (bytes.extract (count + 1) bytes.size)
termination_by bytes.size
decreasing_by
  rw [ByteArray.size_extract]
  omega

end Writer

/-- A writer that chunks are written to. -/
structure WrappedWriter where
  writer : Writer
  /-- The reason of the last failure, if there was one. -/
  failure? : Option String := none

namespace WrappedWriter

instance : Sink WrappedWriter where
  put w chunk :=
    match w.writer.writeAll chunk.text.toUTF8 with
    | (writer, .ok ()) => ({ w with writer := writer }, .ok ())
    | (writer, .error reason) => ({ writer := writer, failure? := some reason }, .error {})

/-- The error in the place of another one: the failure that is kept, if there is one. -/
def replaceError (w : WrappedWriter) (original : Error) : Error :=
  match w.failure? with
  | some reason => .output reason
  | none => original

end WrappedWriter

end Stencil
