import Stencil.Proofs.Run.Simulation
import Stencil.Run.Sink

/-!
# Writing in pieces

A writer takes as many bytes as there is room for, whatever the calls are that they come in. Its
wrapper keeps the reason why it took no more.

* `Writer.fill`: the writer after some bytes
* `Writer.writeAll_eq`: the calls for some bytes together
* `WrappedWriter.put_of_le`, `WrappedWriter.put_of_lt`: what the wrapper makes of them
-/

namespace Stencil

namespace Writer

/-- The writer after some bytes, as many of them as there is room for. -/
def fill (w : Writer) (bytes : ByteArray) : Writer :=
  { w with taken := w.taken ++ bytes.extract 0 w.room, room := w.room - bytes.size }

@[simp] theorem fill_room (w : Writer) (bytes : ByteArray) :
    (w.fill bytes).room = w.room - bytes.size := rfl

@[simp] theorem fill_reason (w : Writer) (bytes : ByteArray) : (w.fill bytes).reason = w.reason :=
  rfl

theorem taken_fill (w : Writer) (bytes : ByteArray) :
    (w.fill bytes).taken.data.toList =
      w.taken.data.toList ++ bytes.data.toList.take w.room := by
  rw [fill, ByteArray.data_append, Array.toList_append, ByteArray.data_extract,
    Array.toList_extract]
  rfl

theorem fill_of_size_eq_zero (w : Writer) {bytes : ByteArray} (h : bytes.size = 0) :
    w.fill bytes = w := by
  have hempty : bytes.extract 0 w.room = ByteArray.empty := by
    rw [ByteArray.extract_eq_empty_iff, h]
    omega
  rw [fill, hempty, ByteArray.append_empty, h]
  rfl

theorem fill_of_room_eq_zero {w : Writer} (h : w.room = 0) (bytes : ByteArray) :
    w.fill bytes = w := by
  simp only [fill, h, ByteArray.extract_same, ByteArray.append_empty, Nat.zero_sub]
  rw [← h]

/-- Filling with two pieces, one after the other, is filling with both. -/
theorem fill_fill (w : Writer) (first second : ByteArray) :
    (w.fill first).fill second = w.fill (first ++ second) := by
  simp only [fill, ByteArray.extract_append, ByteArray.append_assoc, ByteArray.size_append,
    Nat.zero_sub, Nat.sub_sub]

/-- Nothing is taken after bytes that do not fit. -/
theorem fill_append_of_lt {w : Writer} {first : ByteArray} (h : w.room < first.size)
    (second : ByteArray) : w.fill (first ++ second) = w.fill first := by
  rw [← fill_fill, fill_of_room_eq_zero]
  exact Nat.sub_eq_zero_of_le (Nat.le_of_lt h)

/-! ## Calls -/

/-- One call fills the writer with the bytes that it counts. -/
theorem write_eq {w : Writer} (h : w.room ≠ 0) (bytes : ByteArray) :
    w.write bytes =
      (w.fill (bytes.extract 0 (min bytes.size w.room)), .ok (min bytes.size w.room)) := by
  have hcount : (bytes.extract 0 (min bytes.size w.room)).size = min bytes.size w.room := by
    rw [ByteArray.size_extract]
    omega
  have htaken : (bytes.extract 0 (min bytes.size w.room)).extract 0 w.room =
      bytes.extract 0 (min bytes.size w.room) := by
    rw [ByteArray.extract_extract]
    congr 1
    omega
  rw [write, if_neg h, fill, htaken, hcount]

/-- All the calls for some bytes fill the writer with them. They fail if the bytes do not fit. -/
theorem writeAll_eq (w : Writer) (bytes : ByteArray) :
    w.writeAll bytes =
      (w.fill bytes, if bytes.size ≤ w.room then .ok () else .error w.reason) := by
  induction hn : bytes.size using Nat.strongRecOn generalizing w bytes with
  | _ n ih =>
  subst hn
  rw [writeAll]
  by_cases hsize : bytes.size = 0
  · rw [if_pos hsize, fill_of_size_eq_zero w hsize, hsize, if_pos (Nat.zero_le _)]
  rw [if_neg hsize]
  by_cases hroom : w.room = 0
  · rw [write, if_pos hroom, fill_of_room_eq_zero hroom, if_neg (by omega)]
  obtain ⟨count, hcount⟩ : ∃ count, min bytes.size w.room = count + 1 :=
    Nat.exists_eq_succ_of_ne_zero (by omega)
  have hfirst : (bytes.extract 0 (count + 1)).size = count + 1 := by
    rw [ByteArray.size_extract]
    omega
  have hrest : (bytes.extract (count + 1) bytes.size).size = bytes.size - (count + 1) := by
    rw [ByteArray.size_extract, Nat.min_self]
  have hboth : bytes.extract 0 (count + 1) ++ bytes.extract (count + 1) bytes.size = bytes := by
    rw [ByteArray.extract_append_extract, Nat.zero_min, ByteArray.extract_zero_max_size]
  have hfits : bytes.size - (count + 1) ≤ w.room - (count + 1) ↔ bytes.size ≤ w.room := by
    omega
  rw [write_eq hroom, hcount]
  dsimp only
  rw [ih _ (by omega) _ _ hrest, fill_fill, hboth, fill_room, hfirst, fill_reason]
  simp only [hfits]

end Writer

/-! ## The wrapper -/

namespace WrappedWriter

/-- A chunk that fits is taken and leaves no failure. -/
theorem put_of_le (w : WrappedWriter) (chunk : Chunk)
    (h : chunk.text.toUTF8.size ≤ w.writer.room) :
    Sink.put w chunk = ({ w with writer := w.writer.fill chunk.text.toUTF8 }, .ok ()) := by
  simp only [Sink.put, Writer.writeAll_eq, if_pos h]

/-- A chunk that does not fit is refused without a reason. The reason of the writer is kept. -/
theorem put_of_lt (w : WrappedWriter) (chunk : Chunk)
    (h : w.writer.room < chunk.text.toUTF8.size) :
    Sink.put w chunk =
      ({ writer := w.writer.fill chunk.text.toUTF8, failure? := some w.writer.reason },
        .error {}) := by
  simp only [Sink.put, Writer.writeAll_eq, if_neg (Nat.not_le_of_lt h)]

/-- The writer is filled with a chunk, whatever comes of it. -/
theorem writer_put (w : WrappedWriter) (chunk : Chunk) :
    (Sink.put w chunk).1.writer = w.writer.fill chunk.text.toUTF8 := by
  rcases Nat.lt_or_ge w.writer.room chunk.text.toUTF8.size with hlt | hle
  · rw [put_of_lt w chunk hlt]
  · rw [put_of_le w chunk hle]

end WrappedWriter

end Stencil
