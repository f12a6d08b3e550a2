import Mathlib
import KeyedStream.Proofs.Programs
import KeyedStream.Proofs.TableMirror

/-!
# Batches that are split

What programs come to does not depend on where a batch ends, so a batch may be cut in two, with the
rows written and read again in between (`processEventBatch_append`).
-/

namespace KeyedStream

open Handler (Call)

variable {ω ρ : Type}

/-! ## Two batches in place of one -/

/-- A declared state of scalars: a value, or a table with keys of a type in which no two have one
stored form. -/
inductive ScalarState where
  | value (id : String) (t : ScalarType) (width : IntWidth)
  | table (id : String) (k v : ScalarType) (width : IntWidth) (hk : k ∉ [.float32, .float64, .instant])

/-- What the operations on a declared state come to on its rows. -/
noncomputable def ScalarState.mirror : ScalarState → Mirror Script.Item
  | value id t width => .value id t width
  | table id k v width hk => .table id k v width hk

/-- The states that a handler declares. -/
noncomputable abbrev mirrors (states : ρ → ScalarState) (a : ρ) : Mirror Script.Item :=
  (states a).mirror

namespace Handler

variable {states : ρ → ScalarState} {react : Instant → Call → Program (mirrors states)}
  {h : Handler ω Script.Item} {c : Context} {key : Bytes} {σ : Store}

/-- **Splitting a batch is invisible.** A handler declares states of scalars under different names,
and its callbacks are programs on them. A store has rows for a key that belong under the names of
its states. If a batch of events of the key is answered, then so are its two parts, the second with
what the first one left in the store, and both leave the store that the batch leaves, byte for byte.
The timers and sink requests of the batch are those of the first part and then those of the second.
The rows of a state may be delivered in any order, before each part. -/
theorem processEventBatch_append (hinj : Function.Injective fun a => (mirrors states a).id)
    (hfollows : h.Follows react)
    (hvalid : ∀ a, (mirrors states a).Valid (σ (mirrors states a).id)) {es fs : List Wire.Event}
    (hkeys : ∀ e ∈ es ++ fs, ∀ call, Asks e call → call.key = key)
    {watermark : Option Wire.Timestamp} {keyStates : List Wire.KeyState}
    (hreads : Delivers (mirrors states) keyStates key σ) {w w' : World ω}
    {r : Wire.ProcessEventBatchResponse}
    (hok : h.processEventBatch c { events := es ++ fs, keyStates, watermark } w = (.ok r, w')) :
    w' = w ∧ ∀ keyStates₁, Delivers (mirrors states) keyStates₁ key σ →
      ∃ r₁, h.processEventBatch c { events := es, keyStates := keyStates₁, watermark } w = (.ok r₁, w) ∧
        (∃ keyStates₂, Delivers (mirrors states) keyStates₂ key (σ.apply r₁)) ∧
        ∀ keyStates₂, Delivers (mirrors states) keyStates₂ key (σ.apply r₁) →
          ∃ r₂, h.processEventBatch c { events := fs, keyStates := keyStates₂, watermark } w =
              (.ok r₂, w) ∧
            (σ.apply r₁).apply r₂ = σ.apply r ∧
            newTimersOf r = newTimersOf r₁ ++ newTimersOf r₂ ∧
            r.sinkRequests = r₁.sinkRequests ++ r₂.sinkRequests := by
  obtain ⟨rfl, time, calls, e, htime, hevents, hgoes, heffects, htells⟩ :=
    effects_of_answer hinj hfollows hvalid hreads hkeys hok
  -- the calls and their effect are cut where the events are
  obtain ⟨calls₁, calls₂, hes, hfs, rfl⟩ := forall₂_append_left hevents
  rw [List.map_append, Program.effects_append, Option.bind_eq_some_iff] at heffects
  obtain ⟨e₁, heffects₁, heffects⟩ := heffects
  obtain ⟨e₂, heffects₂, rfl⟩ := Option.map_eq_some_iff.1 heffects
  have hcalls : ∀ call ∈ calls₁ ++ calls₂, call.key = key := by
    intro call hcall
    obtain ⟨event, hevent, hasks⟩ := exists_mem_of_forall₂ hevents.flip hcall
    exact hkeys event hevent call hasks
  refine ⟨rfl, fun keyStates₁ hreads₁ => ?_⟩
  obtain ⟨r₁, hok₁, htells₁, hvalid₁⟩ := exists_answer hinj hfollows hvalid
    { events := es, keyStates := keyStates₁, watermark } hreads₁ htime hes (fun hne => hgoes (by simp [hne]))
    (fun call hcall => hcalls call (List.mem_append_left _ hcall)) heffects₁
  refine ⟨r₁, hok₁, hreads₁.exists_apply r₁, fun keyStates₂ hreads₂ => ?_⟩
  rw [← htells₁.store] at heffects₂ hvalid₁
  obtain ⟨r₂, hok₂, htells₂, -⟩ := exists_answer hinj hfollows hvalid₁
    { events := fs, keyStates := keyStates₂, watermark } hreads₂ htime hfs (fun hne => hgoes (by simp [hne]))
    (fun call hcall => hcalls call (List.mem_append_right _ hcall)) heffects₂
  refine ⟨r₂, hok₂, ?_, ?_, ?_⟩
  · rw [htells₂.store, htells.store]
    rfl
  · rw [htells.timers, htells₁.timers, htells₂.timers, ← List.map_append]
    rfl
  · rw [htells.sinkRequests, htells₁.sinkRequests, htells₂.sinkRequests]
    rfl

/-! ### A count and a table -/

/-- A count of events, and a table. -/
def tallyStates : Bool → ScalarState
  | false => .value "count" .int64 .w64
  | true => .table "seen" .int32 .int64 .w64 (by decide)

theorem storable_count (n : Int64) : ScalarType.int64.Storable .w64 n :=
  ⟨_, rfl, ScalarType.decode_encode (by decide) rfl⟩

/-- On an event the count goes up, and an entry comes into the table or goes out of it. A timer sets
another one. -/
noncomputable def tally (_ : Instant) : Call → Program (mirrors tallyStates)
  | .event e =>
    .perform false (ValueOp.read : ValueOp .int64 .w64) fun (n : Option Int64) =>
    .perform false (.set (n.getD 0 + 1) (storable_count _) : ValueOp .int64 .w64) fun _ =>
    .perform true
      (if n = some 0 then .set (7 : Int32) (1 : Int64) ⟨_, rfl, rfl⟩ (storable_count 1)
        else .delete (7 : Int32) : TableOp .int32 .int64 .w64) fun _ =>
    .addSink "echo" e.value .done
  | .timer _ t => .setTimer t .done

/-- The handler of these programs. It keys no records. -/
noncomputable def tallyHandler : Handler Unit Script.Item := ofPrograms (fun _ _ w => (.ok [], w)) tally

/-- An event, a timer, and another event of one key. -/
def tallyEvents : List Wire.Event :=
  [⟨some (.keyedEvent { key := [1], value := [10] })⟩,
    ⟨some (.timerExpired { key := [1], timestamp := some ⟨5, 0⟩ })⟩,
    ⟨some (.keyedEvent { key := [1], value := [11] })⟩]

/-- The answer to all of them: the entry that came and went is deleted. -/
def tallyAnswer : Wire.ProcessEventBatchResponse where
  keyResults := [{
    key := [1]
    newTimers := [⟨5, 0⟩]
    stateMutationNamespaces := [
      { name := "count", mutations := [(Mutation.put (Bytes.ofText "count") [8, 2]).toWire] },
      { name := "seen", mutations := [(Mutation.delete [8, 7]).toWire] }] }]
  sinkRequests := [⟨"echo", [10]⟩, ⟨"echo", [11]⟩]

/-- The store without rows. -/
def noRows : Store := fun _ _ => none

theorem processEventBatch_append_tally :
    tallyHandler.processEventBatch sampleContext
        { events := tallyEvents.take 1 ++ tallyEvents.drop 1 } { own := () } =
          (.ok tallyAnswer, { own := () }) ∧
      ∃ r₁ keyStates r₂,
        tallyHandler.processEventBatch sampleContext { events := tallyEvents.take 1 } { own := () } =
          (.ok r₁, { own := () }) ∧
        tallyHandler.processEventBatch sampleContext { events := tallyEvents.drop 1, keyStates }
          { own := () } = (.ok r₂, { own := () }) ∧
        (noRows.apply r₁).apply r₂ = noRows.apply tallyAnswer ∧
        newTimersOf r₁ ++ newTimersOf r₂ = [⟨5, 0⟩] ∧
        r₁.sinkRequests ++ r₂.sinkRequests = [⟨"echo", [10]⟩, ⟨"echo", [11]⟩] := by
  have hinj : Function.Injective fun a => (mirrors tallyStates a).id := by
    intro a b hid
    cases a <;> cases b
    · rfl
    · exact absurd hid (show "count" ≠ "seen" by decide)
    · exact absurd hid (show "seen" ≠ "count" by decide)
    · rfl
  have hvalid : ∀ a, (mirrors tallyStates a).Valid (noRows (mirrors tallyStates a).id) := by
    intro a
    cases a with
    | false => exact fun _ _ => rfl
    | true => rintro row payload ⟨⟩
  have hreads : Delivers (mirrors tallyStates) [] [1] noRows :=
    fun _ => ⟨List.nodup_nil, fun _ => ⟨fun h => absurd h List.not_mem_nil, by rintro ⟨⟩⟩⟩
  have hkeys : ∀ e ∈ tallyEvents.take 1 ++ tallyEvents.drop 1, ∀ call, Asks e call →
      call.key = [1] := by
    intro e he call hasks
    simp only [tallyEvents, List.take_succ_cons, List.take_zero, List.drop_succ_cons, List.drop_zero,
      List.cons_append, List.nil_append, List.mem_cons, List.not_mem_nil, or_false] at he
    obtain rfl | rfl | rfl := he <;> cases hasks <;> rfl
  have hok : tallyHandler.processEventBatch sampleContext
      { events := tallyEvents.take 1 ++ tallyEvents.drop 1 } { own := () } =
        (.ok tallyAnswer, { own := () }) := rfl
  obtain ⟨-, hsplit⟩ := processEventBatch_append hinj (follows_ofPrograms _ tally) hvalid hkeys hreads hok
  obtain ⟨r₁, hok₁, ⟨keyStates, hreads₂⟩, hsecond⟩ := hsplit [] hreads
  obtain ⟨r₂, hok₂, hstore, htimers, hsinks⟩ := hsecond keyStates hreads₂
  exact ⟨hok, r₁, keyStates, r₂, hok₁, hok₂, hstore, htimers.symm, hsinks.symm⟩

end Handler

end KeyedStream
