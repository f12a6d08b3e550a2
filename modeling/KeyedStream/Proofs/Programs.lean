import Mathlib
import KeyedStream.Proofs.Dispatch
import KeyedStream.Proofs.Mirror

/-!
# Batches of programs

A handler whose callbacks are programs leaves a subject that carries what the programs come to on the
stored rows (`Carries`), call by call (`outcome_of_carries`). So a batch on one key is answered just
if its programs come through on the rows (`effects_of_answer`, `exists_answer`), and then the answer
brings the rows to where the programs bring them.
-/

namespace KeyedStream

open Handler (Call)

variable {κ ω ρ : Type} {Item : κ → Type}

/-! ## Handlers of programs -/

/-- The callback that runs a program. It does not touch the world. -/
def Program.callback [DecidableEq κ] {states : ρ → Mirror Item} (p : Program states) :
    Callback ω Item := fun s w =>
  match p.run s with
  | (.ok (), s) => (.ok (), s, w)
  | (.error e, s) => (.error (.failed e), s, w)

/-- The callbacks of a handler are programs, which depend on the watermark and the call: on the key,
the time, and the event or timer. -/
def Handler.Follows [DecidableEq κ] {states : ρ → Mirror Item} (h : Handler ω Item)
    (react : Instant → Call → Program states) : Prop :=
  ∀ c call s w, s.key = call.key → s.timestamp = call.timestamp →
    h.callback c call s w = (react c.watermark call).callback s w

/-- The handler of some programs. -/
def Handler.ofPrograms [DecidableEq κ] {states : ρ → Mirror Item}
    (keyEvent : Context → Bytes → World ω → Except Error (List KeyedEvent) × World ω)
    (react : Instant → Call → Program states) : Handler ω Item where
  keyEvent := keyEvent
  operator :=
    { onEvent := fun c e => (react c.watermark (.event e)).callback
      onTimerExpired := fun c t s => (react c.watermark (.timer s.key t)).callback s }

theorem Handler.follows_ofPrograms [DecidableEq κ] {states : ρ → Mirror Item}
    (keyEvent : Context → Bytes → World ω → Except Error (List KeyedEvent) × World ω)
    (react : Instant → Call → Program states) : (ofPrograms keyEvent react).Follows react := by
  intro c call s w hkey _
  cases call with
  | event e => rfl
  | timer key t =>
    obtain rfl : s.key = key := hkey
    rfl

/-! ## Deliveries -/

/-- The rows that are delivered for a key are those that are stored for its declared states. -/
def Delivers (states : ρ → Mirror Item) (keyStates : List Wire.KeyState) (key : Bytes) (σ : Store) :
    Prop :=
  ∀ a, Table.Lists (deliveredRows keyStates key (states a).id) (σ (states a).id)

namespace Delivers

variable {states : ρ → Mirror Item} {keyStates : List Wire.KeyState} {key : Bytes} {σ : Store}

/-- A store with other rows under a name can be delivered. -/
theorem exists_set (h : Delivers states keyStates key σ) (name : String) {rows : List StateEntry}
    {n : Table} (hlists : Table.Lists rows n) :
    ∃ keyStates', Delivers states keyStates' key (σ.set name n) := by
  let front := ((lastDelivery? keyStates key).map (·.stateEntryNamespaces)).getD []
  refine ⟨[{ key, stateEntryNamespaces := front ++ [{ name, entries := rows }] }], fun a => ?_⟩
  rw [deliveredRows, lastDelivery?, List.filter_singleton]
  simp only [decide_true, cond_true, List.getLast?_singleton, rowsIn, List.filter_append,
    List.filter_singleton]
  by_cases hname : name = (states a).id
  · simp only [hname, decide_true, cond_true, List.getLast?_append, List.getLast?_singleton,
      Option.some_or, Store.set_self]
    exact hlists
  · have hold := h a
    rw [deliveredRows] at hold
    simp only [hname, decide_false, cond_false, List.append_nil, Store.set_of_ne (Ne.symm hname)]
    cases hlast : lastDelivery? keyStates key with
    | none =>
      simp only [front, hlast] at hold ⊢
      exact hold
    | some s =>
      simp only [front, hlast] at hold ⊢
      exact hold

theorem exists_change (h : Delivers states keyStates key σ) (n : Wire.StateMutationNamespace) :
    ∃ keyStates', Delivers states keyStates' key (σ.change n) := by
  by_cases hdeclared : ∃ a, (states a).id = n.name
  · obtain ⟨a, ha⟩ := hdeclared
    have hold : Table.Lists (deliveredRows keyStates key n.name) (σ n.name) := ha ▸ h a
    obtain ⟨rows, hlists⟩ := hold.exists_foldl_change n.mutations
    exact h.exists_set n.name hlists
  · refine ⟨keyStates, fun a => ?_⟩
    have hne : (states a).id ≠ n.name := fun heq => hdeclared ⟨a, heq⟩
    rw [Store.change, Store.set_of_ne hne]
    exact h a

/-- What was delivered and then changed can be delivered again. -/
theorem exists_apply (h : Delivers states keyStates key σ) (r : Wire.ProcessEventBatchResponse) :
    ∃ keyStates', Delivers states keyStates' key (σ.apply r) := by
  rw [Store.apply]
  induction (r.keyResults.flatMap (·.stateMutationNamespaces)) generalizing keyStates σ with
  | nil => exact ⟨keyStates, h⟩
  | cons n ns ih =>
    obtain ⟨keyStates', h'⟩ := h.exists_change n
    exact ih h'

end Delivers

/-! ## Histories of programs -/

/-- A subject of a key that carries what programs came to on a store. -/
structure Carries [DecidableEq κ] (states : ρ → Mirror Item) (σ : Store) (key : Bytes) (e : Effect)
    (s : Subject Item) : Prop where
  holds : Holds states σ s e.store
  key_eq : s.key = key
  timers : s.timers = e.timers
  sinkRequests : s.sinkRequests = e.sinkRequests

namespace Handler

variable [DecidableEq κ] {states : ρ → Mirror Item} {react : Instant → Call → Program states}
  {h : Handler ω Item} {c : Context} {keyStates : List Wire.KeyState} {key : Bytes} {σ : Store}

theorem carries_initial (hvalid : ∀ a, (states a).Valid (σ (states a).id))
    (hreads : Delivers states keyStates key σ) :
    Carries states σ key { store := σ } (.initial keyStates key : Subject Item) where
  holds :=
    { lists := fun a => by
        rw [Subject.entries_initial]
        exact hreads a
      valid := hvalid
      untouched := fun _ _ => ⟨rfl, rfl⟩
      touched := by rintro name r ⟨⟩ }
  key_eq := rfl
  timers := rfl
  sinkRequests := rfl

/-- **One call.** Its callback comes through just if its program does on the rows that the subject
stands for, and the subject then carries what the program came to as well. -/
theorem outcome_of_carries (hinj : Function.Injective fun a => (states a).id)
    (hfollows : h.Follows react) {past : List (Ran ω)} {e : Effect} {call : Call}
    (hkey : call.key = key) (hcarries : Carries states σ key e (h.subjectOf c keyStates past key))
    (w : World ω) :
    ((react c.watermark call).effect e.store = none ∧
        ∃ err s, h.outcome c keyStates past call w = (.error (.failed err), s, w)) ∨
      ∃ e' s, (react c.watermark call).effect e.store = some e' ∧
        h.outcome c keyStates past call w = (.ok (), s, w) ∧
        Carries states σ key (e.andThen e') s := by
  have hprepared : Holds states σ (prepare (h.subjectOf c keyStates past key) call) e.store :=
    hcarries.holds.of_same rfl rfl rfl
  have houtcome : h.outcome c keyStates past call w = (react c.watermark call).callback
      (prepare (h.subjectOf c keyStates past key) call) w := by
    rw [outcome, hkey]
    exact hfollows c call _ w (hcarries.key_eq.trans hkey.symm) rfl
  rw [houtcome, Program.callback]
  rcases hprepared.run_program hinj (react c.watermark call) with
    ⟨hnone, err, s, hrun⟩ | ⟨e', s, heffect, hrun, hholds, hkey', htimers, hsinks⟩
  · exact .inl ⟨hnone, err, s, by rw [hrun]⟩
  · refine .inr ⟨e', s, heffect, by rw [hrun], hholds, hkey'.trans hcarries.key_eq, ?_, ?_⟩
    · rw [htimers, show (prepare _ call).timers = _ from hcarries.timers]
      rfl
    · rw [hsinks, show (prepare _ call).sinkRequests = _ from hcarries.sinkRequests]
      rfl

/-- Calls that ran to their ends are those whose programs come through. -/
theorem effects_of_runs (hinj : Function.Injective fun a => (states a).id) (hfollows : h.Follows react)
    (hvalid : ∀ a, (states a).Valid (σ (states a).id)) (hreads : Delivers states keyStates key σ)
    {w w' : World ω} {past : List (Ran ω)} (hruns : h.Runs c keyStates w past w')
    (hkeys : ∀ ran ∈ past, ran.key = key) :
    w' = w ∧ (past ≠ [] → w.isCancelled c.token = false) ∧
      ∃ e, Program.effects (past.map fun ran => react c.watermark ran.call) σ = some e ∧
        Carries states σ key e (h.subjectOf c keyStates past key) := by
  induction hruns with
  | start => exact ⟨rfl, fun hne => absurd rfl hne, _, rfl, carries_initial hvalid hreads⟩
  | @call past w₁ w₂ call s hpast hgoes hcall ih =>
    have hlast : call.key = key := hkeys ⟨call, w₁⟩ (by simp)
    obtain ⟨rfl, -, e, heffects, hcarries⟩ :=
      ih fun ran hran => hkeys ran (List.mem_append_left _ hran)
    rcases outcome_of_carries hinj hfollows hlast hcarries w₁ with
      ⟨-, err, s', hout⟩ | ⟨e', s', heffect, hout, hcarries'⟩
    · rw [hcall] at hout
      cases hout
    · rw [hcall] at hout
      cases hout
      refine ⟨rfl, fun _ => hgoes, e.andThen e', ?_, ?_⟩
      · rw [List.map_append, List.map_singleton, Program.effects_concat, heffects, Option.bind_some,
          heffect, Option.map_some]
      · rw [subjectOf_concat, if_pos hlast.symm, hcall]
        exact hcarries'

/-- Calls whose programs come through run to their ends. -/
theorem runs_of_effects (hinj : Function.Injective fun a => (states a).id) (hfollows : h.Follows react)
    (hvalid : ∀ a, (states a).Valid (σ (states a).id)) (hreads : Delivers states keyStates key σ)
    {w : World ω} {calls : List Call} (hgoes : calls ≠ [] → w.isCancelled c.token = false)
    (hkeys : ∀ call ∈ calls, call.key = key) {e : Effect}
    (heffects : Program.effects (calls.map (react c.watermark)) σ = some e) :
    h.Runs c keyStates w (calls.map fun call => ⟨call, w⟩) w ∧
      Carries states σ key e (h.subjectOf c keyStates (calls.map fun call => ⟨call, w⟩) key) := by
  induction calls using List.reverseRecOn generalizing e with
  | nil =>
    cases heffects
    exact ⟨.start, carries_initial hvalid hreads⟩
  | append_singleton calls call ih =>
    have hlast : call.key = key := hkeys call (by simp)
    have hgoes' : w.isCancelled c.token = false := hgoes (by simp)
    rw [List.map_append, List.map_singleton, Program.effects_concat, Option.bind_eq_some_iff] at heffects
    obtain ⟨e₁, heffects₁, heffect⟩ := heffects
    obtain ⟨e₂, he₂, rfl⟩ := Option.map_eq_some_iff.1 heffect
    obtain ⟨hruns, hcarries⟩ := ih (fun _ => hgoes')
      (fun call' hcall' => hkeys call' (List.mem_append_left _ hcall')) heffects₁
    rw [List.map_append, List.map_singleton]
    rcases outcome_of_carries hinj hfollows hlast hcarries w with
      ⟨hnone, -⟩ | ⟨e', s', heffect', hout, hcarries'⟩
    · rw [hnone] at he₂
      cases he₂
    · rw [heffect'] at he₂
      cases he₂
      refine ⟨.call hruns hgoes' hout, ?_⟩
      rw [subjectOf_concat, if_pos hlast.symm, hout]
      exact hcarries'

end Handler

/-! ## Answers -/

/-- The timers that an answer sets. -/
def newTimersOf (r : Wire.ProcessEventBatchResponse) : List Wire.Timestamp :=
  r.keyResults.flatMap (·.newTimers)

/-- An answer says what programs came to. -/
structure Tells (σ : Store) (e : Effect) (r : Wire.ProcessEventBatchResponse) : Prop where
  store : σ.apply r = e.store
  timers : newTimersOf r = e.timers.map .ofInstant
  sinkRequests : r.sinkRequests = e.sinkRequests

theorem keysOf_of_forall {past : List (Ran ω)} {key : Bytes} (h : ∀ ran ∈ past, ran.key = key) :
    past = [] ∨ keysOf past = [key] := by
  induction past using List.reverseRecOn with
  | nil => exact .inl rfl
  | append_singleton past ran ih =>
    obtain ⟨call, w⟩ := ran
    have hlast : call.key = key := h ⟨call, w⟩ (by simp)
    refine .inr ?_
    rw [keysOf_concat, hlast]
    rcases ih fun ran hran => h ran (List.mem_append_left _ hran) with rfl | hkeys
    · rfl
    · rw [hkeys, if_pos List.mem_cons_self]

namespace Handler

variable [DecidableEq κ] {states : ρ → Mirror Item} {react : Instant → Call → Program states}
  {h : Handler ω Item} {c : Context} {keyStates : List Wire.KeyState} {key : Bytes} {σ : Store}

theorem tells_of_results {past : List (Ran ω)} (hkeys : ∀ ran ∈ past, ran.key = key) {e : Effect}
    (hcarries : Carries states σ key e (h.subjectOf c keyStates past key))
    {results : List Wire.KeyResult}
    (hresults : List.Forall₂ (fun key r => (h.subjectOf c keyStates past key).encode = .ok r)
      (keysOf past) results) :
    Tells σ e { keyResults := results
                sinkRequests := (keysOf past).flatMap fun key =>
                  (h.subjectOf c keyStates past key).sinkRequests } := by
  rcases keysOf_of_forall hkeys with rfl | hkeys
  · -- without a call the subject is as it was delivered
    rw [show keysOf ([] : List (Ran ω)) = [] from rfl] at hresults ⊢
    obtain rfl := List.forall₂_nil_left_iff.1 hresults
    refine ⟨funext fun name => (hcarries.holds.untouched name rfl).2.symm, ?_, ?_⟩
    · rw [← hcarries.timers]
      rfl
    · rw [← hcarries.sinkRequests]
      rfl
  · rw [hkeys] at hresults ⊢
    obtain ⟨result, _, hresult, hnil, rfl⟩ := List.forall₂_cons_left_iff.1 hresults
    obtain rfl := List.forall₂_nil_left_iff.1 hnil
    obtain ⟨result', hencode, htimers, hstore⟩ := hcarries.holds.encode
    rw [hresult] at hencode
    cases hencode
    refine ⟨?_, ?_, ?_⟩
    · rw [Store.apply, List.flatMap_singleton]
      exact hstore
    · rw [newTimersOf, List.flatMap_singleton, htimers, hcarries.timers]
    · rw [List.flatMap_singleton, hcarries.sinkRequests]

/-- A batch on one key that is answered comes to what its programs come to on the stored rows. -/
theorem effects_of_answer (hinj : Function.Injective fun a => (states a).id)
    (hfollows : h.Follows react) (hvalid : ∀ a, (states a).Valid (σ (states a).id))
    {request : Wire.ProcessEventBatchRequest} (hreads : Delivers states request.keyStates key σ)
    (hkeys : ∀ e ∈ request.events, ∀ call, Asks e call → call.key = key) {w w' : World ω}
    {r : Wire.ProcessEventBatchResponse} (hok : h.processEventBatch c request w = (.ok r, w')) :
    w' = w ∧ ∃ watermark calls e, Wire.Timestamp.instant? request.watermark = some watermark ∧
      List.Forall₂ Asks request.events calls ∧ (calls ≠ [] → w.isCancelled c.token = false) ∧
      Program.effects (calls.map (react watermark)) σ = some e ∧ Tells σ e r := by
  obtain ⟨watermark, past, results, hwatermark, hevents, hruns, hresults, rfl⟩ :=
    processEventBatch_eq_ok_iff.1 hok
  have hpast : ∀ ran ∈ past, ran.key = key := by
    intro ran hran
    obtain ⟨e, he, hasks⟩ := exists_mem_of_forall₂ hevents.flip (List.mem_map_of_mem hran)
    exact hkeys e he ran.call hasks
  obtain ⟨rfl, hgoes, e, heffects, hcarries⟩ :=
    effects_of_runs hinj hfollows hvalid hreads hruns hpast
  refine ⟨rfl, watermark, past.map Ran.call, e, hwatermark, hevents, ?_, ?_,
    tells_of_results hpast hcarries hresults⟩
  · intro hne
    exact hgoes fun hnil => hne (by rw [hnil]; rfl)
  · rw [List.map_map]
    exact heffects

/-- A batch on one key whose programs come through on the stored rows is answered. -/
theorem exists_answer (hinj : Function.Injective fun a => (states a).id) (hfollows : h.Follows react)
    (hvalid : ∀ a, (states a).Valid (σ (states a).id)) (request : Wire.ProcessEventBatchRequest)
    (hreads : Delivers states request.keyStates key σ) {watermark : Instant}
    (hwatermark : Wire.Timestamp.instant? request.watermark = some watermark) {calls : List Call}
    (hevents : List.Forall₂ Asks request.events calls) {w : World ω}
    (hgoes : calls ≠ [] → w.isCancelled c.token = false) (hkeys : ∀ call ∈ calls, call.key = key)
    {e : Effect} (heffects : Program.effects (calls.map (react watermark)) σ = some e) :
    ∃ r, h.processEventBatch c request w = (.ok r, w) ∧ Tells σ e r ∧
      ∀ a, (states a).Valid (e.store (states a).id) := by
  obtain ⟨hruns, hcarries⟩ := runs_of_effects (c := c.withWatermark watermark) hinj hfollows hvalid
    hreads hgoes hkeys heffects
  have hpast : ∀ ran ∈ calls.map fun call => (⟨call, w⟩ : Ran ω), ran.key = key := by
    intro ran hran
    obtain ⟨call, hcall, rfl⟩ := List.mem_map.1 hran
    exact hkeys call hcall
  have hrenders : ∀ key' ∈ keysOf (calls.map fun call => (⟨call, w⟩ : Ran ω)), ∃ r,
      (h.subjectOf (c.withWatermark watermark) request.keyStates
        (calls.map fun call => ⟨call, w⟩) key').encode = .ok r := by
    intro key' hmem
    obtain ⟨ran, hran, rfl⟩ := mem_keysOf.1 hmem
    obtain ⟨result, hencode, -⟩ := hcarries.holds.encode
    rw [hpast ran hran]
    exact ⟨result, hencode⟩
  obtain ⟨results, hresults⟩ := exists_forall₂ hrenders
  have hcalls : List.Forall₂ Asks request.events
      ((calls.map fun call => (⟨call, w⟩ : Ran ω)).map Ran.call) := by
    rw [List.map_map]
    simpa [Function.comp_def] using hevents
  exact ⟨_, processEventBatch_eq_ok_iff.2 ⟨watermark, _, results, hwatermark, hcalls, hruns, hresults,
    rfl⟩, tells_of_results hpast hcarries hresults, hcarries.holds.valid_store hinj⟩

end Handler

end KeyedStream
