import Mathlib
import KeyedStream.Proofs.Chunks

/-!
# Frames that are rejected

A push fails only at a length above the limit, and leaves that length at the front of the buffer
(`FrameBuffer.rejects_of_push_eq_error`). There it stays: every push that follows finds it, fails in
the same way, and adds its bytes behind it (`FrameBuffer.push_of_rejects`), until the buffer is
cleared. A buffer that was cleared is as good as new, whatever it held.
-/

namespace KeyedStream.FrameBuffer

open KeyedStream.Frame

variable {b b' : FrameBuffer} {n fuel : Nat} {e : Error}

/-- Whether a length above the limit is at the front of a buffer. -/
def Rejects (b : FrameBuffer) (n : Nat) : Prop := b.awaited = none ∧ Oversize b.max n b.bytes

/-! ## Failing pushes -/

theorem max_takePayload (b : FrameBuffer) (n : Nat) : (b.takePayload n).2.max = b.max := by
  rw [takePayload]
  split <;> rfl

theorem max_take (b : FrameBuffer) : b.take.2.max = b.max := by
  rw [take]
  split
  · exact max_takePayload b _
  · split
    · rfl
    · split
      · rfl
      · exact max_takePayload _ _

theorem max_drain (fuel : Nat) (b : FrameBuffer) : (drain fuel b).2.max = b.max := by
  induction fuel generalizing b with
  | zero => rfl
  | succ fuel ih =>
    have hmax := max_take b
    rcases htake : b.take with ⟨_ | _ | _, b₁⟩ <;> rw [htake] at hmax
    · have hrest := (ih b₁).trans hmax
      rcases hdrain : drain fuel b₁ with ⟨_ | _, _⟩ <;> rw [hdrain] at hrest <;>
        simpa only [drain, htake, hdrain] using hrest
    · simpa only [drain, htake] using hmax
    · simpa only [drain, htake] using hmax

theorem max_push (b : FrameBuffer) (data : Bytes) : (b.push data).2.max = b.max :=
  max_drain _ { b with bytes := b.bytes ++ data }

theorem takePayload_ne_oversize (b : FrameBuffer) (m n : Nat) : (b.takePayload m).1 ≠ .oversize n := by
  rw [takePayload]
  split <;> simp

theorem take_of_rejects (h : b.Rejects n) : b.take = (.oversize n, b) := by
  obtain ⟨hawaited, hlength, hlt⟩ := h
  simp only [take, hawaited, hlength, hlt, if_true]

theorem rejects_of_take (h : b.take = (.oversize n, b')) : b.Rejects n ∧ b' = b := by
  have hnever : ∀ (b₀ : FrameBuffer) (m : Nat), b₀.takePayload m ≠ (.oversize n, b') :=
    fun b₀ m hsame => takePayload_ne_oversize b₀ m n (congrArg Prod.fst hsame)
  rw [take] at h
  split at h
  · exact absurd h (hnever _ _)
  · next hawaited =>
    split at h
    · cases h
    · next hlength =>
      split at h
      · next hlt =>
        cases h
        exact ⟨⟨hawaited, hlength, hlt⟩, rfl⟩
      · exact absurd h (hnever _ _)

/-- Payloads are taken out until a length above the limit comes to the front. -/
theorem rejects_of_drain_eq_error (h : drain fuel b = (.error e, b')) :
    ∃ n, b'.Rejects n ∧ e = tooLarge n b.max := by
  induction fuel generalizing b with
  | zero => cases h
  | succ fuel ih =>
    have hmax := max_take b
    rcases htake : b.take with ⟨_ | _ | n, b₁⟩ <;> simp only [drain, htake] at h <;>
      rw [htake] at hmax
    · rcases hdrain : drain fuel b₁ with ⟨_ | _, _⟩ <;> rw [hdrain] at h
      · cases h
        exact hmax ▸ ih hdrain
      · cases h
    · cases h
    · cases h
      obtain ⟨hrejects, rfl⟩ := rejects_of_take htake
      exact ⟨n, hrejects, rfl⟩

/-- **A push fails only at a length above the limit**, and leaves it at the front. -/
theorem rejects_of_push_eq_error {data : Bytes} (h : b.push data = (.error e, b')) :
    ∃ n, b'.Rejects n ∧ e = tooLarge n b.max :=
  rejects_of_drain_eq_error (b := { b with bytes := b.bytes ++ data }) h

/-! ## Pushes that follow -/

theorem Rejects.append (h : b.Rejects n) (data : Bytes) :
    Rejects { b with bytes := b.bytes ++ data } n :=
  ⟨h.1, decodeLength?_append h.2.1 data, h.2.2⟩

/-- **A push on a buffer that rejects a frame fails**, and all of its bytes are added. -/
theorem push_of_rejects (h : b.Rejects n) (data : Bytes) :
    b.push data = (.error (tooLarge n b.max), { b with bytes := b.bytes ++ data }) := by
  have htake := take_of_rejects (h.append data)
  simp only [push, drain, htake]

theorem pushAll_of_rejects (h : b.Rejects n) (chunks : List Bytes) :
    b.pushAll chunks = (chunks.map fun _ => .error (tooLarge n b.max),
      { b with bytes := b.bytes ++ chunks.flatten }) := by
  induction chunks generalizing b with
  | nil => simp [pushAll]
  | cons data chunks ih =>
    have hrest := ih (h.append data)
    simp only [pushAll, push_of_rejects h, hrest, List.map_cons, List.flatten_cons, List.append_assoc]

/-- A length is there, so a buffer that rejects a frame is not empty. -/
theorem Rejects.isEmpty_eq (h : b.Rejects n) : b.isEmpty = false := by
  obtain ⟨-, hlength, -⟩ := h
  have hbytes : b.bytes ≠ [] := by
    intro hnil
    rw [hnil] at hlength
    cases hlength
  simp [isEmpty, hbytes]

/-! ## Histories -/

/-- What may be done with a buffer. -/
inductive Step where
  | push (data : Bytes)
  | clear

def step (b : FrameBuffer) : Step → FrameBuffer
  | .push data => (b.push data).2
  | .clear => b.clear

/-- The buffer after a history. -/
def after (b : FrameBuffer) (history : List Step) : FrameBuffer := history.foldl step b

theorem max_step (b : FrameBuffer) (s : Step) : (b.step s).max = b.max := by
  cases s with
  | push data => exact max_push b data
  | clear => rfl

theorem max_after (b : FrameBuffer) (history : List Step) : (b.after history).max = b.max := by
  induction history generalizing b with
  | nil => rfl
  | cons s history ih => exact (ih (b.step s)).trans (max_step b s)

/-- **A rejected frame stays rejected until the buffer is cleared**, and then it is forgotten. Whatever
was done with a buffer before, a push fails only at a length above the limit. Then every push that
follows fails with the same error, none of their bytes are taken out, and the buffer is never empty.
A buffer that is cleared, in whatever state it is, answers all pushes that follow as a new one with
its limit does. -/
theorem rejected_until_cleared (max : Nat) (history : List Step) :
    (∀ data e b, (after { max } history).push data = (.error e, b) →
      (∃ n, max < n ∧ e = .protocol
        ("frame size " ++ toString n ++ " exceeds maximum " ++ toString max)) ∧
      ∀ chunks, (b.pushAll chunks).1 = chunks.map (fun _ => .error e) ∧
        (b.pushAll chunks).2.bytes = b.bytes ++ chunks.flatten ∧
        (b.pushAll chunks).2.size = b.size + chunks.flatten.length ∧
        (b.pushAll chunks).2.isEmpty = false) ∧
    ∀ chunks, (after { max } history).clear.pushAll chunks = pushAll { max } chunks := by
  have hmax : (after { max } history).max = max := max_after _ history
  refine ⟨fun data e b hfails => ?_, fun chunks => ?_⟩
  · obtain ⟨n, hrejects, rfl⟩ := rejects_of_push_eq_error hfails
    have hlimit : b.max = max := by
      rw [← hmax, ← max_push (after { max } history) data, hfails]
    have hlt := hrejects.2.2
    have hpushes := pushAll_of_rejects hrejects
    rw [hlimit] at hlt hpushes
    rw [hmax]
    refine ⟨⟨n, hlt, rfl⟩, fun chunks => ?_⟩
    have hleft := (hrejects.append chunks.flatten).isEmpty_eq
    rw [hpushes chunks]
    exact ⟨rfl, rfl, List.length_append, hleft⟩
  · rw [clear, hmax]

/-- Behind a frame that was taken out, a length above the limit stays; it is gone once the buffer is
cleared. -/
example :
    ((after { max := 2 } [.push [0, 0, 0, 1, 7, 0, 0]]).push [0, 9]).1 = .error (tooLarge 9 2) ∧
      (after { max := 2 } [.push [0, 0, 0, 1, 7, 0, 0], .push [0, 9]]).bytes = [0, 0, 0, 9] ∧
      ((after { max := 2 } [.push [0, 0, 0, 1, 7, 0, 0], .push [0, 9], .clear]).push
        [0, 0, 0, 1, 7]).1 = .ok [[7]] := by
  decide

end KeyedStream.FrameBuffer
