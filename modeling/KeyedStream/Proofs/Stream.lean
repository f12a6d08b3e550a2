import Mathlib
import KeyedStream.Proofs.Frame
import KeyedStream.Stream

/-!
# What streams hand out and take in

The reads of an input hand out its bytes, whatever their sizes (`Input.flatten_reads`). An output
without a limit takes the frame of every payload whose length can be written
(`Output.writeFrame_of_unlimited`, `Output.writeFrames_of_unlimited`).
-/

namespace KeyedStream

open KeyedStream.Frame

/-! ## Reads -/

theorem flatten_splitReads {fuel : Nat} {bytes : Bytes} (h : bytes.length < fuel) :
    (splitReads fuel bytes).flatten = bytes := by
  induction fuel generalizing bytes with
  | zero => omega
  | succ fuel ih =>
    rw [splitReads]
    split
    · simp
    · next hlong =>
      rw [List.flatten_cons, ih (by rw [List.length_drop, readSize] at *; omega),
        List.take_append_drop]

theorem ne_nil_of_mem_splitReads {fuel : Nat} {bytes data : Bytes} (hbytes : bytes ≠ [])
    (hdata : data ∈ splitReads fuel bytes) : data ≠ [] := by
  induction fuel generalizing bytes with
  | zero => cases hdata
  | succ fuel ih =>
    rw [splitReads] at hdata
    split at hdata
    · rw [List.mem_singleton] at hdata
      rw [hdata]
      exact hbytes
    · next hlong =>
      rw [readSize] at hlong
      rcases List.mem_cons.1 hdata with rfl | hrest
      · rw [readSize, ← List.length_pos_iff, List.length_take]
        omega
      · refine ih ?_ hrest
        rw [readSize, ← List.length_pos_iff, List.length_drop]
        omega

/-- The reads of a stream hand out its bytes. -/
theorem Input.flatten_reads (i : Input) : i.reads.flatten = i.bytes := by
  unfold Input.reads Input.bytes
  induction i.chunks with
  | nil => rfl
  | cons chunk chunks ih =>
    rw [List.flatMap_cons, List.flatten_append, flatten_splitReads (Nat.lt_succ_self _), ih,
      List.flatten_cons]

/-! ## Frames that are written -/

namespace Output

/-- The output after frames were written. -/
def emit (o : Output) (rs : List Bytes) : Output := { o with written := o.written ++ rs.flatMap frame }

@[simp] theorem written_emit (o : Output) (rs : List Bytes) :
    (o.emit rs).written = o.written ++ rs.flatMap frame := rfl

@[simp] theorem capacity_emit (o : Output) (rs : List Bytes) : (o.emit rs).capacity = o.capacity :=
  rfl

@[simp] theorem emit_nil (o : Output) : o.emit [] = o := by simp [emit]

theorem emit_take_eq_iff {o : Output} {rs : List Bytes} {k : Nat} :
    o.emit (rs.take k) = o.emit rs ↔ rs.length ≤ k := by
  constructor
  · intro h
    have hwritten := congrArg written h
    rw [written_emit, written_emit, List.append_cancel_left_eq] at hwritten
    have hsplit : rs.flatMap frame = (rs.take k).flatMap frame ++ (rs.drop k).flatMap frame := by
      rw [← List.flatMap_append, List.take_append_drop]
    have hnone : (rs.drop k).flatMap frame = [] := by
      rw [← hwritten] at hsplit
      simpa using hsplit
    have := length_le_length_frames (rs.drop k)
    rw [hnone, List.length_nil, List.length_drop] at this
    omega
  · intro h
    rw [List.take_of_length_le h]

theorem emit_append (o : Output) (rs rs' : List Bytes) :
    o.emit (rs ++ rs') = (o.emit rs).emit rs' := by
  simp [emit]

/-- An output without a limit takes the frame of every payload that has one. -/
theorem writeFrame_of_unlimited {o : Output} (ho : o.capacity = none) {r : Bytes}
    (hr : r.length < 256 ^ lengthSize) : o.writeFrame r = (.ok (), o.emit [r]) := by
  have hlen : payloadLength r = .ok r.length := if_pos hr
  simp [writeFrame, hlen, write, room, ho, emit, frame]

/-- The frames of payloads are written one behind the other. -/
theorem writeFrames_of_unlimited {o : Output} (ho : o.capacity = none) {ps : List Bytes}
    (hps : ∀ p ∈ ps, p.length < 256 ^ lengthSize) :
    o.writeFrames ps = (ps.map fun _ => .ok (), o.emit ps) := by
  induction ps generalizing o with
  | nil => simp [writeFrames]
  | cons p ps ih =>
    have hwrite := writeFrame_of_unlimited ho (hps p List.mem_cons_self)
    have hrest := ih (o := o.emit [p]) ho fun q hq => hps q (List.mem_cons_of_mem p hq)
    simp only [writeFrames, hwrite, hrest]
    rw [← emit_append, List.singleton_append, List.map_cons]

end Output

end KeyedStream
