import Mathlib
import KeyedStream.Proofs.Pairing
import KeyedStream.Proofs.Stream

/-!
# Frames out of chunks

A stream is pushed into a frame buffer chunk by chunk. As long as no length above the limit comes,
the payloads that come back are those of the frames that the stream begins with, whatever the chunks
are, and the buffer stands for what follows (`FrameBuffer.pushAll_frames`). If such a length comes, a
push fails (`FrameBuffer.pushAll_oversize`). Every stream is of one of the two kinds, and which one
can be read off the lengths in it (`Frame.LengthAt`); `FrameBuffer.pushAll_chunks` puts this
together, and adds that what is written as frames comes back.
-/

namespace KeyedStream

namespace Frame

/-- A length that stands at the beginning of the bytes, or behind a row of complete frames. -/
def LengthAt (bytes : Bytes) (n : Nat) : Prop :=
  ∃ (ps : List Bytes) (rest : Bytes), (∀ p ∈ ps, p.length < 256 ^ lengthSize) ∧
    bytes = ps.flatMap frame ++ rest ∧ decodeLength? rest = some n

theorem fits_of_lt {p : Bytes} (h : p.length < 256 ^ lengthSize) : Fits (256 ^ lengthSize) p :=
  ⟨Nat.le_of_lt h, h⟩

/-- Behind frames within a limit and the beginning of another one, no length is above the limit. -/
theorem LengthAt.le_of_frames {max n : Nat} {ps : List Bytes} {rest : Bytes}
    (hps : ∀ p ∈ ps, Fits max p) (hrest : Incomplete max rest)
    (h : LengthAt (ps.flatMap frame ++ rest) n) : n ≤ max := by
  obtain ⟨qs, rest', hqs, hbytes, hn⟩ := h
  induction ps generalizing qs with
  | nil =>
    rw [List.flatMap_nil, List.nil_append] at hbytes
    cases qs with
    | nil =>
      rw [List.flatMap_nil, List.nil_append] at hbytes
      exact (hrest n (hbytes ▸ hn)).1
    | cons q qs =>
      -- the rest would hold a complete frame
      have hq := fits_of_lt (hqs q List.mem_cons_self)
      rw [List.flatMap_cons, List.append_assoc] at hbytes
      have hlen : decodeLength? rest = some q.length := by rw [hbytes, decodeLength?_frame hq]
      have hshort := (hrest q.length hlen).2
      rw [hbytes, List.length_append, length_frame] at hshort
      omega
  | cons p ps ih =>
    have hp := hps p List.mem_cons_self
    rw [List.flatMap_cons, List.append_assoc] at hbytes
    cases qs with
    | nil =>
      rw [List.flatMap_nil, List.nil_append] at hbytes
      rw [← hbytes, decodeLength?_frame hp] at hn
      obtain rfl := Option.some.inj hn
      exact hp.1
    | cons q qs =>
      rw [List.flatMap_cons, List.append_assoc] at hbytes
      obtain ⟨-, htail⟩ :=
        frame_append_inj (fits_of_lt hp.2) (fits_of_lt (hqs q List.mem_cons_self)) hbytes
      exact ih (fun p' hp' => hps p' (List.mem_cons_of_mem p hp')) qs
        (fun q' hq' => hqs q' (List.mem_cons_of_mem q hq')) htail

theorem build_eq_ok_iff {p f : Bytes} :
    build p = .ok f ↔ p.length < 256 ^ lengthSize ∧ f = frame p := by
  unfold build payloadLength
  by_cases hlen : p.length < Nat.pow 256 lengthSize
  · rw [if_pos hlen]
    constructor
    · intro h
      exact ⟨hlen, (Except.ok.inj h).symm⟩
    · rintro ⟨-, rfl⟩
      rfl
  · rw [if_neg hlen]
    constructor
    · intro h
      cases h
    · rintro ⟨h, -⟩
      exact absurd h hlen

theorem mapM_build {ps : List Bytes} (h : ∀ p ∈ ps, p.length < 256 ^ lengthSize) :
    ps.mapM build = .ok (ps.map frame) := by
  rw [mapM_eq_ok_iff, List.forall₂_map_right_iff, List.forall₂_same]
  intro p hp
  exact build_eq_ok_iff.2 ⟨h p hp, rfl⟩

/-- The beginning of a frame does not begin with a complete one. -/
theorem Incomplete.not_build_isPrefix {max : Nat} {rest p f : Bytes} (h : Incomplete max rest)
    (hf : build p = .ok f) : ¬ f <+: rest := by
  obtain ⟨hlen, rfl⟩ := build_eq_ok_iff.1 hf
  rintro ⟨more, rfl⟩
  have hshort := (h p.length (decodeLength?_frame (fits_of_lt hlen) more)).2
  rw [List.length_append, length_frame] at hshort
  omega

end Frame

namespace FrameBuffer

open KeyedStream.Frame

/-! ## Chunks -/

/-- What comes back when chunks are pushed one after the other, and the buffer after them. -/
def pushAll : FrameBuffer → List Bytes → List (Except Error (List Bytes)) × FrameBuffer
  | b, [] => ([], b)
  | b, data :: chunks =>
    let (r, b) := b.push data
    let (rs, b) := pushAll b chunks
    (r :: rs, b)

/-- The payloads that pushes gave back. -/
def payloads (rs : List (Except Error (List Bytes))) : List Bytes :=
  rs.flatMap fun r => r.toOption.getD []

/-- **The chunks do not matter** on the way through a row of frames and the beginning of another one:
the payloads come back, and the buffer stands for what follows. -/
theorem pushAll_frames {max : Nat} {chunks : List Bytes} {front rest : Bytes} {ps : List Bytes}
    (hfront : Incomplete max front) (hps : ∀ p ∈ ps, Fits max p) (hrest : Incomplete max rest)
    (hbytes : front ++ chunks.flatten = ps.flatMap frame ++ rest) :
    (∀ r ∈ ((resting max front).pushAll chunks).1, r.isOk = true) ∧
      payloads ((resting max front).pushAll chunks).1 = ps ∧
      ((resting max front).pushAll chunks).2 = resting max rest := by
  induction chunks generalizing front ps with
  | nil =>
    rw [List.flatten_nil, List.append_nil] at hbytes
    obtain ⟨ps', hnil, hrest'⟩ :=
      @exists_append_of_frames max ps [] rest front hps (by simp) (.inl hfront) hbytes.symm
    obtain ⟨rfl, rfl⟩ := List.append_eq_nil_iff.1 hnil.symm
    rw [List.flatMap_nil, List.nil_append] at hrest'
    simp [pushAll, payloads, hrest']
  | cons data chunks ih =>
    rw [List.flatten_cons] at hbytes
    obtain ⟨qs, ps', front', rfl, hpush, hfront', htail⟩ :=
      exists_push_resting hfront hps hrest hbytes
    obtain ⟨hok, hpayloads, hend⟩ :=
      ih hfront' (fun p hp => hps p (List.mem_append_right qs hp)) htail
    simp only [pushAll, hpush]
    refine ⟨?_, ?_, hend⟩
    · intro r hr
      rcases List.mem_cons.1 hr with rfl | hr
      · rfl
      · exact hok r hr
    · rw [payloads, List.flatMap_cons, ← payloads, hpayloads]
      rfl

/-- A length above the limit makes the push fail in which it becomes complete. -/
theorem pushAll_oversize {max n : Nat} {chunks : List Bytes} {front rest : Bytes} {ps : List Bytes}
    (hfront : Incomplete max front) (hps : ∀ p ∈ ps, Fits max p) (hrest : Oversize max n rest)
    (hbytes : front ++ chunks.flatten = ps.flatMap frame ++ rest) :
    ∃ r ∈ ((resting max front).pushAll chunks).1, r.isOk = false := by
  induction chunks generalizing front ps with
  | nil =>
    rw [List.flatten_nil, List.append_nil] at hbytes
    obtain ⟨ps', hnil, hrest'⟩ :=
      @exists_append_of_frames max ps [] rest front hps (by simp) (.inl hfront) hbytes.symm
    obtain ⟨-, rfl⟩ := List.append_eq_nil_iff.1 hnil.symm
    rw [List.flatMap_nil, List.nil_append] at hrest'
    have hwithin := (hfront n (hrest' ▸ hrest.1)).1
    have := hrest.2
    omega
  | cons data chunks ih =>
    obtain ⟨qs, front', hdata, hqs, hstuck⟩ := exists_frames max (front ++ data)
    rcases hstuck with hfront' | ⟨m, hover⟩
    · rw [List.flatten_cons, ← List.append_assoc, hdata, List.append_assoc] at hbytes
      obtain ⟨ps', rfl, htail⟩ := exists_append_of_frames hqs hps (.inr ⟨n, hrest⟩) hbytes
      obtain ⟨r, hr, hfails⟩ :=
        ih hfront' (fun p hp => hps p (List.mem_append_right qs hp)) htail
      have hpush := push_resting_frames hfront hqs hdata hfront'
      simp only [pushAll, hpush]
      exact ⟨r, List.mem_cons_of_mem _ hr, hfails⟩
    · have hpush := push_resting_oversize hfront hqs hdata hover
      simp only [pushAll, hpush]
      exact ⟨_, List.mem_cons_self, rfl⟩

/-- A buffer in which nothing was pushed yet stands for no bytes. -/
theorem resting_nil (max : Nat) : resting max [] = { max } := by
  simp [resting, decodeLength?, lengthSize]

theorem pushAll_fresh {max : Nat} {chunks : List Bytes} {ps : List Bytes} {rest : Bytes}
    (hbytes : chunks.flatten = ps.flatMap frame ++ rest) (hps : ∀ p ∈ ps, Fits max p)
    (hrest : Incomplete max rest) :
    (∀ r ∈ (pushAll { max } chunks).1, r.isOk = true) ∧
      payloads (pushAll { max } chunks).1 = ps ∧
      (pushAll { max } chunks).2 = resting max rest := by
  rw [← resting_nil]
  exact pushAll_frames (incomplete_nil max) hps hrest hbytes

/-- A stream without a length above the limit is a row of frames and the beginning of another one. -/
theorem exists_frames_of_lengths {max : Nat} {bytes : Bytes} (h : ∀ n, LengthAt bytes n → n ≤ max) :
    ∃ (ps : List Bytes) (rest : Bytes), bytes = ps.flatMap frame ++ rest ∧ (∀ p ∈ ps, Fits max p) ∧
      Incomplete max rest := by
  obtain ⟨ps, rest, hbytes, hps, hrest | ⟨n, hn, hover⟩⟩ := exists_frames max bytes
  · exact ⟨ps, rest, hbytes, hps, hrest⟩
  · have := h n ⟨ps, rest, fun p hp => (hps p hp).2, hbytes, hn⟩
    omega

/-- **Framing loses and invents nothing, however the stream is cut.** No push fails just if no length
in the stream is above the limit. Then the stream is the frames of the payloads that came back and a
part that holds no complete frame; the buffer is empty if that part is, and counts its bytes, but not
those of a length that is complete. All of this depends on the stream alone. So payloads within the
limit that were written as frames come back, and nothing is left. -/
theorem pushAll_chunks (max : Nat) (chunks : List Bytes) :
    ((∀ r ∈ (pushAll { max } chunks).1, r.isOk = true) ↔
      ∀ n, LengthAt chunks.flatten n → n ≤ max) ∧
    ((∀ n, LengthAt chunks.flatten n → n ≤ max) →
      (∃ frames pending, (payloads (pushAll { max } chunks).1).mapM build = .ok frames ∧
        chunks.flatten = frames.flatten ++ pending ∧
        (∀ p f, build p = .ok f → ¬ f <+: pending) ∧
        (pushAll { max } chunks).2.size =
          (if pending.length < 4 then pending.length else pending.length - 4) ∧
        ((pushAll { max } chunks).2.isEmpty = true ↔ pending = [])) ∧
      ∀ chunks', chunks'.flatten = chunks.flatten →
        payloads (pushAll { max } chunks').1 = payloads (pushAll { max } chunks).1 ∧
        (pushAll { max } chunks').2.size = (pushAll { max } chunks).2.size ∧
        (pushAll { max } chunks').2.isEmpty = (pushAll { max } chunks).2.isEmpty) ∧
    ∀ ps, (∀ p ∈ ps, Fits max p) → chunks.flatten = (({} : Output).writeFrames ps).2.written →
      (∀ r ∈ (pushAll { max } chunks).1, r.isOk = true) ∧
        payloads (pushAll { max } chunks).1 = ps ∧ (pushAll { max } chunks).2.isEmpty = true := by
  refine ⟨⟨?_, ?_⟩, ?_, ?_⟩
  · intro hok
    obtain ⟨ps, rest, hbytes, hps, hrest | ⟨n, hover⟩⟩ := exists_frames max chunks.flatten
    · intro n hn
      exact (hbytes ▸ hn).le_of_frames hps hrest
    · obtain ⟨r, hr, hfails⟩ := pushAll_oversize (incomplete_nil max) hps hover hbytes
      rw [resting_nil] at hr
      rw [hok r hr] at hfails
      cases hfails
  · intro hlengths
    obtain ⟨ps, rest, hbytes, hps, hrest⟩ := exists_frames_of_lengths hlengths
    exact (pushAll_fresh hbytes hps hrest).1
  · intro hlengths
    obtain ⟨ps, rest, hbytes, hps, hrest⟩ := exists_frames_of_lengths hlengths
    obtain ⟨-, hpayloads, hend⟩ := pushAll_fresh hbytes hps hrest
    refine ⟨⟨ps.map frame, rest, ?_, ?_, ?_, ?_, ?_⟩, ?_⟩
    · rw [hpayloads]
      exact mapM_build fun p hp => (hps p hp).2
    · rw [hbytes, List.flatMap_def]
    · intro p f hf
      exact hrest.not_build_isPrefix hf
    · rw [hend, size_resting, pendingSize, lengthSize]
    · rw [hend, isEmpty_resting]
    · intro chunks' hsame
      obtain ⟨-, hpayloads', hend'⟩ := pushAll_fresh (hsame.trans hbytes) hps hrest
      rw [hpayloads, hpayloads', hend, hend']
      exact ⟨rfl, rfl, rfl⟩
  · intro ps hps hwritten
    rw [Output.writeFrames_of_unlimited rfl fun p hp => (hps p hp).2, Output.written_emit,
      List.nil_append, ← List.append_nil (ps.flatMap frame)] at hwritten
    obtain ⟨hok, hpayloads, hend⟩ := pushAll_fresh hwritten hps (incomplete_nil max)
    refine ⟨hok, hpayloads, ?_⟩
    rw [hend, isEmpty_resting]

end FrameBuffer

end KeyedStream
