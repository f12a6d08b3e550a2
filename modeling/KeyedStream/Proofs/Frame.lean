import Mathlib
import KeyedStream.Bytes.Lemmas
import KeyedStream.Frame.Buffer

/-!
# Frames out of a buffer

A buffer stands for the bytes that it holds: the length that it may have taken out already, and what
follows (`held`). What a push gives back depends on the bytes held after it alone. They are a row of
frames within the limit and a rest, and either the rest is the beginning of a frame and the payloads
are given back (`push_frames`), or it begins with a length above the limit and the push fails, with
nothing given back (`push_oversize`). Every byte string splits in this way (`exists_frames`).
-/

namespace KeyedStream

namespace Frame

/-- The frame of a payload that fits its length. -/
def frame (p : Bytes) : Bytes := encodeLength p.length ++ p

/-- Whether the length of a payload fits its bytes and a limit. -/
def Fits (max : Nat) (p : Bytes) : Prop := p.length ≤ max ∧ p.length < 256 ^ lengthSize

@[simp] theorem length_encodeLength (n : Nat) : (encodeLength n).length = lengthSize := by
  simp [encodeLength]

@[simp] theorem length_frame (p : Bytes) : (frame p).length = lengthSize + p.length := by
  simp [frame]

theorem length_le_length_frames (ps : List Bytes) : ps.length ≤ (ps.flatMap frame).length := by
  induction ps with
  | nil => exact Nat.le_refl 0
  | cons p ps ih =>
    rw [List.flatMap_cons, List.length_append, length_frame, List.length_cons, lengthSize]
    omega

theorem decodeLength?_encodeLength {n : Nat} (h : n < 256 ^ lengthSize) (rest : Bytes) :
    decodeLength? (encodeLength n ++ rest) = some n := by
  have htake : (encodeLength n ++ rest).take lengthSize = encodeLength n := by
    rw [List.take_left' (length_encodeLength n)]
  unfold decodeLength?
  simp only [htake, length_encodeLength, if_true]
  rw [encodeLength, Bytes.ofBigEndian_bigEndian, Nat.mod_eq_of_lt h]

theorem decodeLength?_eq_none_iff {bytes : Bytes} :
    decodeLength? bytes = none ↔ bytes.length < lengthSize := by
  simp only [decodeLength?, List.length_take]
  split
  · next h => simp; omega
  · next h => simp; omega

/-- A length that is read is what the bytes begin with. -/
theorem eq_encodeLength_of_decodeLength? {bytes : Bytes} {n : Nat} (h : decodeLength? bytes = some n) :
    n < 256 ^ lengthSize ∧ bytes = encodeLength n ++ bytes.drop lengthSize := by
  unfold decodeLength? at h
  simp only at h
  split at h
  · next hlen =>
    obtain rfl := Option.some.inj h
    have hback := Bytes.bigEndian_ofBigEndian (bytes.take lengthSize)
    have hlt := Bytes.ofBigEndian_lt (bytes.take lengthSize)
    rw [hlen] at hback hlt
    refine ⟨hlt, ?_⟩
    rw [encodeLength, hback, List.take_append_drop]
  · simp at h

theorem decodeLength?_append {bytes : Bytes} {n : Nat} (h : decodeLength? bytes = some n)
    (more : Bytes) : decodeLength? (bytes ++ more) = some n := by
  obtain ⟨hn, hbytes⟩ := eq_encodeLength_of_decodeLength? h
  rw [hbytes, List.append_assoc, decodeLength?_encodeLength hn]

theorem decodeLength?_frame {max : Nat} {p : Bytes} (h : Fits max p) (rest : Bytes) :
    decodeLength? (frame p ++ rest) = some p.length := by
  rw [frame, List.append_assoc, decodeLength?_encodeLength h.2]

/-- Two frames at the front of the same bytes are one. -/
theorem frame_append_inj {max : Nat} {p q x y : Bytes} (hp : Fits max p) (hq : Fits max q)
    (h : frame p ++ x = frame q ++ y) : p = q ∧ x = y := by
  have hlen : p.length = q.length := by
    have := congrArg decodeLength? h
    rw [decodeLength?_frame hp, decodeLength?_frame hq] at this
    exact Option.some.inj this
  obtain ⟨hframe, hrest⟩ := List.append_inj h (by rw [length_frame, length_frame, hlen])
  exact ⟨(List.append_inj hframe (by rw [hlen])).2, hrest⟩

/-- Bytes that begin no frame within the limit, or one that is not complete. -/
def Incomplete (max : Nat) (rest : Bytes) : Prop :=
  ∀ n, decodeLength? rest = some n → n ≤ max ∧ rest.length < lengthSize + n

/-- Bytes that begin with a length above the limit. -/
def Oversize (max n : Nat) (rest : Bytes) : Prop := decodeLength? rest = some n ∧ max < n

/-- Bytes that do not begin with a complete frame, and that more bytes may turn into one or not. -/
def Stuck (max : Nat) (rest : Bytes) : Prop := Incomplete max rest ∨ ∃ n, Oversize max n rest

theorem incomplete_nil (max : Nat) : Incomplete max [] := by
  intro n hn
  simp [decodeLength?, lengthSize] at hn

/-- All bytes are a row of frames and a rest that is no frame yet or never will be one. -/
theorem exists_frames (max : Nat) (bytes : Bytes) :
    ∃ (ps : List Bytes) (rest : Bytes), bytes = ps.flatMap frame ++ rest ∧ (∀ p ∈ ps, Fits max p) ∧
      Stuck max rest := by
  induction hlen : bytes.length using Nat.strong_induction_on generalizing bytes with
  | _ len ih =>
    subst hlen
    cases hn : decodeLength? bytes with
    | none => exact ⟨[], bytes, rfl, by simp, .inl fun n h => by simp [hn] at h⟩
    | some n =>
      obtain ⟨hlt, hbytes⟩ := eq_encodeLength_of_decodeLength? hn
      by_cases hmax : max < n
      · exact ⟨[], bytes, rfl, by simp, .inr ⟨n, hn, hmax⟩⟩
      · have hlong : ¬ bytes.length < lengthSize := by
          rw [← decodeLength?_eq_none_iff, hn]
          simp
        by_cases hshort : bytes.length < lengthSize + n
        · refine ⟨[], bytes, rfl, by simp, .inl fun m hm => ?_⟩
          obtain rfl : n = m := Option.some.inj (hn.symm.trans hm)
          exact ⟨Nat.le_of_not_lt hmax, hshort⟩
        · have hp : ((bytes.drop lengthSize).take n).length = n := by
            simp only [List.length_take, List.length_drop]
            omega
          obtain ⟨ps, rest, hrest, hfits, hend⟩ := ih ((bytes.drop lengthSize).drop n).length
            (by simp only [List.length_drop, lengthSize] at hlong hshort ⊢; omega) _ rfl
          refine ⟨(bytes.drop lengthSize).take n :: ps, rest, ?_, ?_, hend⟩
          · rw [List.flatMap_cons, frame, hp, List.append_assoc, List.append_assoc, ← hrest,
              List.take_append_drop]
            exact hbytes
          · intro p hmem
            rcases List.mem_cons.1 hmem with rfl | hmem
            · exact ⟨by rw [hp]; exact Nat.le_of_not_lt hmax, by rw [hp]; exact hlt⟩
            · exact hfits p hmem

theorem Stuck.not_frame {max : Nat} {p rest more : Bytes} (h : Stuck max rest) (hp : Fits max p) :
    rest ≠ frame p ++ more := by
  rintro rfl
  have hlen := decodeLength?_frame hp more
  rcases h with h | ⟨n, hn, hlt⟩
  · have := (h _ hlen).2
    rw [List.length_append, length_frame] at this
    omega
  · rw [hlen] at hn
    have := hp.1
    simp only [Option.some.injEq] at hn
    omega

/-- Frames that begin a row of frames are the first ones of it. -/
theorem exists_append_of_frames {max : Nat} {qs ps : List Bytes} {more rest : Bytes}
    (hqs : ∀ q ∈ qs, Fits max q) (hps : ∀ p ∈ ps, Fits max p) (hrest : Stuck max rest)
    (h : qs.flatMap frame ++ more = ps.flatMap frame ++ rest) :
    ∃ ps', ps = qs ++ ps' ∧ more = ps'.flatMap frame ++ rest := by
  induction qs generalizing ps with
  | nil => exact ⟨ps, rfl, h⟩
  | cons q qs ih =>
    rw [List.flatMap_cons, List.append_assoc] at h
    cases ps with
    | nil => exact absurd h.symm (hrest.not_frame (hqs q List.mem_cons_self))
    | cons p ps =>
      rw [List.flatMap_cons, List.append_assoc] at h
      obtain ⟨rfl, htail⟩ :=
        frame_append_inj (hqs q List.mem_cons_self) (hps p List.mem_cons_self) h
      obtain ⟨ps', rfl, hmore⟩ := ih (fun q hq => hqs q (List.mem_cons_of_mem _ hq))
        (fun p hp => hps p (List.mem_cons_of_mem _ hp)) htail
      exact ⟨ps', rfl, hmore⟩

/-- A length above the limit is not the beginning of a frame within it. -/
theorem Oversize.eq_nil_of_frames {max n : Nat} {ps : List Bytes} {front more rest : Bytes}
    (hps : ∀ p ∈ ps, Fits max p) (hfront : Oversize max n front)
    (h : front ++ more = ps.flatMap frame ++ rest) : ps = [] := by
  cases ps with
  | nil => rfl
  | cons p ps =>
    rw [List.flatMap_cons, List.append_assoc] at h
    have hp := hps p List.mem_cons_self
    have hlen : decodeLength? (front ++ more) = some p.length := by rw [h, decodeLength?_frame hp]
    rw [decodeLength?_append hfront.1] at hlen
    have := hp.1
    have := hfront.2
    simp only [Option.some.injEq] at hlen
    omega

/-- A row of frames and a length above the limit, cut before their last bytes: what comes before the
cut is a part of the row and the beginning of what follows. -/
theorem exists_cut {max n : Nat} {ps : List Bytes} {front last : Bytes} (hps : ∀ p ∈ ps, Fits max p)
    (hover : Oversize max n (encodeLength n)) (hlast : last ≠ [])
    (h : front ++ last = ps.flatMap frame ++ encodeLength n) :
    ∃ qs ps' more, ps = qs ++ ps' ∧ front = qs.flatMap frame ++ more ∧ Incomplete max more ∧
      more ++ last = ps'.flatMap frame ++ encodeLength n := by
  obtain ⟨qs, more, rfl, hqs, hmore⟩ := exists_frames max front
  rw [List.append_assoc] at h
  obtain ⟨ps', rfl, htail⟩ := exists_append_of_frames hqs hps (.inr ⟨n, hover⟩) h
  refine ⟨qs, ps', more, rfl, rfl, ?_, htail⟩
  rcases hmore with hpart | ⟨m, hearly⟩
  · exact hpart
  · -- the length would be complete before the cut, and nothing be left behind it
    obtain rfl := hearly.eq_nil_of_frames (fun p hp => hps p (List.mem_append_right qs hp)) htail
    rw [List.flatMap_nil, List.nil_append] at htail
    have hlong : ¬ more.length < lengthSize := by
      rw [← decodeLength?_eq_none_iff, hearly.1]
      simp
    have hlength := congrArg List.length htail
    rw [List.length_append, length_encodeLength] at hlength
    have hpos : 0 < last.length := List.length_pos_iff.2 hlast
    omega

/-! ## The frames within the first bytes -/

/-- How many frames of a row end within a number of bytes. -/
def countWithin : Nat → List Bytes → Nat
  | _, [] => 0
  | size, p :: ps =>
    if (frame p).length ≤ size then countWithin (size - (frame p).length) ps + 1 else 0

theorem countWithin_append {max : Nat} {qs ps : List Bytes} {rest more last : Bytes}
    (hps : ∀ p ∈ ps, Fits max p) (hrest : Incomplete max rest)
    (h : rest ++ more = ps.flatMap frame ++ last) :
    countWithin (qs.flatMap frame ++ rest).length (qs ++ ps) = qs.length := by
  induction qs with
  | nil =>
    cases ps with
    | nil => rfl
    | cons p ps =>
      rw [List.flatMap_cons, List.append_assoc] at h
      have hshort : rest.length < (frame p).length := by
        by_contra hlong
        obtain ⟨tail, rfl⟩ : ∃ tail, rest = frame p ++ tail :=
          List.prefix_of_prefix_length_le ⟨_, rfl⟩ ⟨_, h⟩ (Nat.le_of_not_lt hlong)
            |>.imp fun _ => Eq.symm
        exact Stuck.not_frame (.inl hrest) (hps p List.mem_cons_self) rfl
      rw [List.flatMap_nil, List.nil_append, List.nil_append, countWithin,
        if_neg (Nat.not_le.2 hshort), List.length_nil]
  | cons q qs ih =>
    rw [List.flatMap_cons, List.append_assoc, List.cons_append, countWithin, List.length_append,
      if_pos (Nat.le_add_right _ _), Nat.add_sub_cancel_left, ih, List.length_cons]

theorem countWithin_le (size : Nat) (ps : List Bytes) : countWithin size ps ≤ ps.length := by
  induction ps generalizing size with
  | nil => exact Nat.le_refl 0
  | cons p ps ih =>
    rw [countWithin]
    split
    · exact Nat.succ_le_succ (ih _)
    · exact Nat.zero_le _

/-- All frames end within some bytes if they are that many at most. -/
theorem countWithin_eq_length_iff {size : Nat} {ps : List Bytes} :
    countWithin size ps = ps.length ↔ (ps.flatMap frame).length ≤ size := by
  induction ps generalizing size with
  | nil => simp [countWithin]
  | cons p ps ih =>
    rw [countWithin, List.flatMap_cons, List.length_append, List.length_cons]
    split
    · rw [Nat.add_right_cancel_iff, ih]
      omega
    · constructor
      · intro h
        simp at h
      · omega

end Frame

namespace FrameBuffer

open KeyedStream.Frame

/-! ## The bytes that a buffer holds -/

/-- The bytes of the stream that were not given back yet. -/
def held (b : FrameBuffer) : Bytes :=
  (match b.awaited with
    | some n => encodeLength n
    | none => []) ++ b.bytes

/-- The length that a buffer has taken out is one that it accepts. -/
def Sound (b : FrameBuffer) : Prop := ∀ n, b.awaited = some n → n ≤ b.max ∧ n < 256 ^ lengthSize

/-- The buffer that holds the beginning of a frame. -/
def resting (max : Nat) (rest : Bytes) : FrameBuffer :=
  match decodeLength? rest with
  | none => { max, bytes := rest }
  | some n => { max, bytes := rest.drop lengthSize, awaited := some n }

@[simp] theorem max_resting (max : Nat) (rest : Bytes) : (resting max rest).max = max := by
  unfold resting
  split <;> rfl

theorem held_resting (max : Nat) (rest : Bytes) : (resting max rest).held = rest := by
  unfold resting
  split
  · rfl
  · next n hn => exact (eq_encodeLength_of_decodeLength? hn).2.symm

/-- The number of bytes in a buffer that holds `rest`: a length is not counted once it is known. -/
def pendingSize (rest : Bytes) : Nat :=
  if rest.length < lengthSize then rest.length else rest.length - lengthSize

theorem size_resting (max : Nat) (rest : Bytes) : (resting max rest).size = pendingSize rest := by
  unfold resting pendingSize
  split
  · next hn => rw [if_pos (decodeLength?_eq_none_iff.1 hn), size]
  · next n hn =>
    have hlong : ¬ rest.length < lengthSize := by
      rw [← decodeLength?_eq_none_iff, hn]
      simp
    rw [if_neg hlong, size, List.length_drop]

theorem isEmpty_resting {max : Nat} {rest : Bytes} :
    (resting max rest).isEmpty = true ↔ rest = [] := by
  unfold resting
  split
  · simp [isEmpty]
  · next n hn =>
    constructor
    · intro h
      simp [isEmpty] at h
    · rintro rfl
      simp [decodeLength?, lengthSize] at hn

theorem sound_resting {max : Nat} {rest : Bytes} (h : Incomplete max rest) :
    (resting max rest).Sound := by
  intro n hn
  unfold resting at hn ⊢
  split at hn
  · simp at hn
  · next m hm =>
    obtain rfl := Option.some.inj hn
    exact ⟨(h m hm).1, (eq_encodeLength_of_decodeLength? hm).1⟩

variable {b : FrameBuffer}

theorem sound_of_none (h : b.awaited = none) : b.Sound := by
  intro n hn
  simp [h] at hn

/-- A complete payload at the front is taken out. -/
theorem take_frame (hb : b.Sound) {p rest : Bytes} (hp : Fits b.max p)
    (hheld : b.held = frame p ++ rest) : b.take = (.payload p, { max := b.max, bytes := rest }) := by
  unfold held at hheld
  cases ha : b.awaited with
  | some n =>
    obtain ⟨hmax, hn⟩ := hb n ha
    rw [ha] at hheld
    have hlen : n = p.length := by
      have := congrArg decodeLength? hheld
      rw [decodeLength?_encodeLength hn, decodeLength?_frame hp] at this
      exact Option.some.inj this
    subst hlen
    rw [frame, List.append_assoc] at hheld
    have hbytes : b.bytes = p ++ rest := List.append_cancel_left hheld
    simp [take, ha, takePayload, hbytes]
  | none =>
    rw [ha, List.nil_append] at hheld
    have hdrop : b.bytes.drop lengthSize = p ++ rest := by
      rw [hheld, frame, List.append_assoc, List.drop_left' (length_encodeLength _)]
    have hle : ¬ b.max < p.length := Nat.not_lt.2 hp.1
    have hlen : decodeLength? b.bytes = some p.length := by rw [hheld, decodeLength?_frame hp]
    simp [take, ha, hlen, hle, takePayload, hdrop]

/-- The beginning of a frame is left where it is, but for its length. -/
theorem take_incomplete (hb : b.Sound) (hrest : Incomplete b.max b.held) :
    b.take = (.incomplete, resting b.max b.held) := by
  cases ha : b.awaited with
  | some n =>
    obtain ⟨hmax, hn⟩ := hb n ha
    have hheld : b.held = encodeLength n ++ b.bytes := by rw [held, ha]
    have hlen : decodeLength? b.held = some n := by rw [hheld, decodeLength?_encodeLength hn]
    have hshort : b.bytes.length < n := by
      have := (hrest n hlen).2
      rw [hheld, List.length_append, length_encodeLength] at this
      omega
    have hdrop : b.held.drop lengthSize = b.bytes := by
      rw [hheld, List.drop_left' (length_encodeLength n)]
    simp [take, ha, takePayload, hshort, resting, hlen, hdrop]
  | none =>
    have hheld : b.held = b.bytes := by rw [held, ha, List.nil_append]
    rw [hheld] at hrest ⊢
    cases hn : decodeLength? b.bytes with
    | none =>
      obtain ⟨max, bytes, awaited⟩ := b
      simp only at ha hn
      simp [take, ha, hn, resting]
    | some n =>
      obtain ⟨hle, hshort⟩ := hrest n hn
      have hlong : ¬ b.bytes.length < lengthSize := by
        rw [← decodeLength?_eq_none_iff, hn]
        simp
      have hlt : b.bytes.length - lengthSize < n := by omega
      simp [take, ha, hn, Nat.not_lt.2 hle, takePayload, hlt, resting]

/-- A length above the limit stays where it is. -/
theorem take_oversize (hb : b.Sound) {n : Nat} (hrest : Oversize b.max n b.held) :
    b.take = (.oversize n, { max := b.max, bytes := b.held }) := by
  cases ha : b.awaited with
  | some m =>
    obtain ⟨hmax, hm⟩ := hb m ha
    have hlen : decodeLength? b.held = some m := by rw [held, ha, decodeLength?_encodeLength hm]
    have : m = n := Option.some.inj (hlen.symm.trans hrest.1)
    exact absurd hrest.2 (by omega)
  | none =>
    have hheld : b.held = b.bytes := by rw [held, ha, List.nil_append]
    obtain ⟨hn, hlt⟩ := hrest
    rw [hheld] at hn ⊢
    obtain ⟨max, bytes, awaited⟩ := b
    simp only at ha hn hlt
    simp [take, ha, hn, hlt]

/-! ## Draining and pushing -/

/-- The buffer after a frame was taken out holds what follows. -/
theorem drain_frame (hb : b.Sound) {p rest : Bytes} (hp : Fits b.max p)
    (hheld : b.held = frame p ++ rest) (fuel : Nat) :
    b.drain (fuel + 1) =
      match drain fuel { max := b.max, bytes := rest } with
      | (.ok ps, b) => (.ok (p :: ps), b)
      | (.error e, b) => (.error e, b) := by
  obtain ⟨r, b', hdrain⟩ : ∃ r b', drain fuel { max := b.max, bytes := rest } = (r, b') := ⟨_, _, rfl⟩
  cases r with
  | ok ps => simp only [drain, take_frame hb hp hheld, hdrain]
  | error e => simp only [drain, take_frame hb hp hheld, hdrain]

theorem drain_frames (hb : b.Sound) {ps : List Bytes} {rest : Bytes} (hps : ∀ p ∈ ps, Fits b.max p)
    (hheld : b.held = ps.flatMap frame ++ rest) (hrest : Incomplete b.max rest) {fuel : Nat}
    (hfuel : ps.length < fuel) : b.drain fuel = (.ok ps, resting b.max rest) := by
  induction ps generalizing b fuel with
  | nil =>
    obtain ⟨fuel, rfl⟩ : ∃ k, fuel = k + 1 := ⟨fuel - 1, by simp at hfuel; omega⟩
    rw [List.flatMap_nil, List.nil_append] at hheld
    rw [drain, take_incomplete hb (hheld ▸ hrest), hheld]
  | cons p ps ih =>
    obtain ⟨fuel, rfl⟩ : ∃ k, fuel = k + 1 := ⟨fuel - 1, by simp at hfuel; omega⟩
    rw [List.flatMap_cons, List.append_assoc] at hheld
    have hnext : drain fuel { max := b.max, bytes := ps.flatMap frame ++ rest } =
        (.ok ps, resting b.max rest) :=
      ih (b := { max := b.max, bytes := ps.flatMap frame ++ rest }) (sound_of_none rfl)
        (fun q hq => hps q (List.mem_cons_of_mem p hq)) rfl hrest (by simpa using hfuel)
    rw [drain_frame hb (hps p List.mem_cons_self) hheld, hnext]

theorem drain_oversize (hb : b.Sound) {ps : List Bytes} {rest : Bytes} {n : Nat}
    (hps : ∀ p ∈ ps, Fits b.max p) (hheld : b.held = ps.flatMap frame ++ rest)
    (hrest : Oversize b.max n rest) {fuel : Nat} (hfuel : ps.length < fuel) :
    b.drain fuel = (.error (tooLarge n b.max), { max := b.max, bytes := rest }) := by
  induction ps generalizing b fuel with
  | nil =>
    obtain ⟨fuel, rfl⟩ : ∃ k, fuel = k + 1 := ⟨fuel - 1, by simp at hfuel; omega⟩
    rw [List.flatMap_nil, List.nil_append] at hheld
    rw [drain, take_oversize hb (hheld ▸ hrest), hheld]
  | cons p ps ih =>
    obtain ⟨fuel, rfl⟩ : ∃ k, fuel = k + 1 := ⟨fuel - 1, by simp at hfuel; omega⟩
    rw [List.flatMap_cons, List.append_assoc] at hheld
    have hnext : drain fuel { max := b.max, bytes := ps.flatMap frame ++ rest } =
        (.error (tooLarge n b.max), { max := b.max, bytes := rest }) :=
      ih (b := { max := b.max, bytes := ps.flatMap frame ++ rest }) (sound_of_none rfl)
        (fun q hq => hps q (List.mem_cons_of_mem p hq)) rfl hrest (by simpa using hfuel)
    rw [drain_frame hb (hps p List.mem_cons_self) hheld, hnext]

@[simp] theorem held_append (data : Bytes) :
    held { b with bytes := b.bytes ++ data } = b.held ++ data := by
  simp [held]

/-- There is fuel for all the frames that a buffer holds. -/
theorem length_lt_of_held {ps : List Bytes} {rest : Bytes} (hheld : b.held = ps.flatMap frame ++ rest) :
    ps.length < b.bytes.length + 2 := by
  have hfew : b.held.length ≤ lengthSize + b.bytes.length := by
    unfold held
    split <;> simp
  cases ps with
  | nil => simp
  | cons p ps =>
    have hmany := length_le_length_frames ps
    rw [hheld, List.flatMap_cons, List.append_assoc, List.length_append, List.length_append,
      length_frame] at hfew
    rw [List.length_cons]
    omega

/-- **All complete payloads are given back.** What is left is the beginning of a frame. -/
theorem push_frames (hb : b.Sound) {data rest : Bytes} {ps : List Bytes}
    (hps : ∀ p ∈ ps, Fits b.max p) (hheld : b.held ++ data = ps.flatMap frame ++ rest)
    (hrest : Incomplete b.max rest) : b.push data = (.ok ps, resting b.max rest) := by
  rw [← held_append] at hheld
  exact drain_frames (b := { b with bytes := b.bytes ++ data }) hb hps hheld hrest
    (length_lt_of_held hheld)

/-- **Nothing is given back before a length above the limit.** The payloads that came with it are
taken out all the same. -/
theorem push_oversize (hb : b.Sound) {data rest : Bytes} {ps : List Bytes} {n : Nat}
    (hps : ∀ p ∈ ps, Fits b.max p) (hheld : b.held ++ data = ps.flatMap frame ++ rest)
    (hrest : Oversize b.max n rest) :
    b.push data = (.error (tooLarge n b.max), { max := b.max, bytes := rest }) := by
  rw [← held_append] at hheld
  exact drain_oversize (b := { b with bytes := b.bytes ++ data }) hb hps hheld hrest
    (length_lt_of_held hheld)

theorem push_resting_frames {max : Nat} {front data rest : Bytes} {ps : List Bytes}
    (hfront : Incomplete max front) (hps : ∀ p ∈ ps, Fits max p)
    (hbytes : front ++ data = ps.flatMap frame ++ rest) (hrest : Incomplete max rest) :
    (resting max front).push data = (.ok ps, resting max rest) := by
  have hpush := @push_frames _ (sound_resting hfront) data rest ps
  simp only [max_resting, held_resting] at hpush
  exact hpush hps hbytes hrest

theorem push_resting_oversize {max n : Nat} {front data rest : Bytes} {ps : List Bytes}
    (hfront : Incomplete max front) (hps : ∀ p ∈ ps, Fits max p)
    (hbytes : front ++ data = ps.flatMap frame ++ rest) (hrest : Oversize max n rest) :
    (resting max front).push data = (.error (tooLarge n max), { max, bytes := rest }) := by
  have hpush := @push_oversize _ (sound_resting hfront) data rest ps n
  simp only [max_resting, held_resting] at hpush
  exact hpush hps hbytes hrest

/-- A push on the way through a row of frames and the beginning of another one gives back the
payloads whose frames end in it. -/
theorem exists_push_resting {max : Nat} {front data more rest : Bytes} {ps : List Bytes}
    (hfront : Incomplete max front) (hps : ∀ p ∈ ps, Fits max p) (hrest : Incomplete max rest)
    (hbytes : front ++ (data ++ more) = ps.flatMap frame ++ rest) :
    ∃ qs ps' front', ps = qs ++ ps' ∧
      (resting max front).push data = (.ok qs, resting max front') ∧ Incomplete max front' ∧
      front' ++ more = ps'.flatMap frame ++ rest := by
  obtain ⟨qs, front', hdata, hqs, hstuck⟩ := exists_frames max (front ++ data)
  rw [← List.append_assoc, hdata, List.append_assoc] at hbytes
  obtain ⟨ps', rfl, htail⟩ := exists_append_of_frames hqs hps (.inl hrest) hbytes
  have hwhole : Incomplete max front' := by
    rcases hstuck with hwhole | ⟨n, hover⟩
    · exact hwhole
    · -- a length above the limit would still be there at the end
      obtain rfl := hover.eq_nil_of_frames (fun p hp => hps p (List.mem_append_right qs hp)) htail
      rw [List.flatMap_nil, List.nil_append] at htail
      have hlen := decodeLength?_append hover.1 more
      rw [htail] at hlen
      have := (hrest n hlen).1
      have := hover.2
      omega
  exact ⟨qs, ps', front', rfl, push_resting_frames hfront hqs hdata hwhole, hwhole, htail⟩

end FrameBuffer

end KeyedStream
