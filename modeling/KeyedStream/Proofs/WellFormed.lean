import Mathlib
import KeyedStream.MsgPack.Skip
import KeyedStream.Proofs.Spellings

/-!
# Well-formed values

The grammar of values, told without a reader (`WellFormed`): a head, in any of its spellings, and what
the head announces, which may be values again. Skipping reads over exactly one value, of those that nest
less deep than the budget (`skip_eq_some_iff`), so no value is the beginning of another one
(`WellFormed.append_inj`): wherever a value stands, its head says where it ends.
-/

namespace KeyedStream.MsgPack

/-- What a head announces. -/
inductive Content where
  | bytes (n : Nat)
  /-- Bytes that are a value of a kind of its own, and count as a container. -/
  | extension (n : Nat)
  | values (n : Nat)

/-- What follows a head. The kind of an extension takes a byte, and an entry of a map is two values. -/
def Head.content : Head → Content
  | .text n | .binary n => .bytes n
  | .extension n => .extension (n + 1)
  | .array n => .values n
  | .map n => .values (2 * n)
  | _ => .bytes 0

/-- One value, with containers in it that nest at most so deep. -/
inductive WellFormed : Nat → Bytes → Prop
  | bytes {depth n : Nat} {h : Head} {head body : Bytes} (hs : h.Spelling head)
    (hc : h.content = .bytes n) (hn : body.length = n) : WellFormed depth (head ++ body)
  | extension {depth n : Nat} {h : Head} {head body : Bytes} (hs : h.Spelling head)
    (hc : h.content = .extension n) (hn : body.length = n) : WellFormed (depth + 1) (head ++ body)
  | values {depth : Nat} {h : Head} {head : Bytes} {items : List Bytes} (hs : h.Spelling head)
    (hc : h.content = .values items.length) (hitems : ∀ item ∈ items, WellFormed depth item) :
    WellFormed (depth + 1) (head ++ items.flatten)

theorem WellFormed.length_pos {depth : Nat} {b : Bytes} (hb : WellFormed depth b) : 0 < b.length := by
  cases hb with
  | bytes hs | extension hs | values hs =>
    have := hs.length_pos
    rw [List.length_append]
    omega

theorem WellFormed.mono {depth depth' : Nat} {b : Bytes} (hb : WellFormed depth b)
    (h : depth ≤ depth') : WellFormed depth' b := by
  induction hb generalizing depth' with
  | bytes hs hc hn => exact .bytes hs hc hn
  | extension hs hc hn =>
    obtain ⟨deeper, rfl⟩ : ∃ deeper, depth' = deeper + 1 := ⟨depth' - 1, by omega⟩
    exact .extension hs hc hn
  | values hs hc _ ih =>
    obtain ⟨deeper, rfl⟩ : ∃ deeper, depth' = deeper + 1 := ⟨depth' - 1, by omega⟩
    exact .values hs hc fun item hitem => ih item hitem (by omega)

/-- Finitely many values nest at most so deep for one depth. -/
theorem exists_depth {items : List Bytes} (h : ∀ item ∈ items, ∃ depth, WellFormed depth item) :
    ∃ depth, ∀ item ∈ items, WellFormed depth item := by
  induction items with
  | nil => exact ⟨0, by simp⟩
  | cons item items ih =>
    obtain ⟨depth, hitem⟩ := h item List.mem_cons_self
    obtain ⟨depth', hitems⟩ := ih fun i hi => h i (List.mem_cons_of_mem _ hi)
    refine ⟨max depth depth', fun i hi => ?_⟩
    rcases List.mem_cons.1 hi with rfl | hi
    · exact hitem.mono (le_max_left _ _)
    · exact (hitems i hi).mono (le_max_right _ _)

/-! ## Skipping -/

theorem drop?_eq_some_iff {n : Nat} {bytes rest : Bytes} :
    drop? n bytes = some rest ↔ ∃ front, front.length = n ∧ bytes = front ++ rest := by
  simp [drop?, Bytes.take?_eq_some_iff]

/-- Reads over what a head announces. -/
def skipContent (fuel budget : Nat) (c : Content) (rest : Bytes) : Option Bytes :=
  match c with
  | .bytes n => drop? n rest
  | .extension n => if budget ≤ 1 then none else drop? n rest
  | .values n => if budget ≤ 1 then none else skipMany fuel (budget - 1) n rest

theorem skipMany_of_read {bytes rest : Bytes} {h : Head} (hread : Head.read bytes = some (h, rest))
    (fuel budget count : Nat) : skipMany (fuel + 1) budget (count + 1) bytes =
      (skipContent fuel budget h.content rest).bind (skipMany fuel budget count) := by
  have hnone : drop? 0 rest = some rest := drop?_eq_some_iff.2 ⟨[], rfl, rfl⟩
  rw [skipMany, hread]
  cases h with
  | text n | binary n =>
    simp only [Head.content, skipContent]
    cases drop? n rest <;> rfl
  | extension n =>
    simp only [Head.content, skipContent]
    generalize (if budget ≤ 1 then none else drop? (n + 1) rest) = after
    cases after <;> rfl
  | array n =>
    simp only [Head.content, skipContent, enter?]
    by_cases hb : budget ≤ 1
    · simp only [hb, if_true, Option.bind_none]
    · simp only [hb, if_false]
      cases skipMany fuel (budget - 1) n rest <;> rfl
  | map n =>
    simp only [Head.content, skipContent, enter?]
    by_cases hb : budget ≤ 1
    · simp only [hb, if_true, Option.bind_none]
    · simp only [hb, if_false]
      cases skipMany fuel (budget - 1) (2 * n) rest <;> rfl
  | _ => simp only [Head.content, skipContent, hnone, Option.bind_some]

theorem skipMany_none {bytes : Bytes} (hread : Head.read bytes = none) (fuel budget count : Nat) :
    skipMany (fuel + 1) budget (count + 1) bytes = none := by
  rw [skipMany, hread]

/-- Bytes that are read over as one value within the budget, whatever follows. -/
def Skipped (budget : Nat) (b : Bytes) : Prop :=
  ∀ fuel count rest, b.length ≤ fuel + 1 →
    skipMany (fuel + 1) budget (count + 1) (b ++ rest) = skipMany fuel budget count rest

theorem skipMany_flatten {budget fuel : Nat} {items : List Bytes}
    (hitems : ∀ item ∈ items, 0 < item.length ∧ Skipped budget item)
    (hfuel : items.flatten.length ≤ fuel) (rest : Bytes) :
    skipMany fuel budget items.length (items.flatten ++ rest) = some rest := by
  induction items generalizing fuel with
  | nil => simp [skipMany]
  | cons item items ih =>
    obtain ⟨hpos, hskip⟩ := hitems item List.mem_cons_self
    rw [List.flatten_cons, List.length_append] at hfuel
    -- An item has a byte, which pays for the step.
    obtain ⟨fuel, rfl⟩ : ∃ n, fuel = n + 1 := ⟨fuel - 1, by omega⟩
    rw [List.flatten_cons, List.append_assoc, List.length_cons, hskip fuel _ _ (by omega)]
    exact ih (fun i hi => hitems i (List.mem_cons_of_mem _ hi)) (by omega)

theorem skipped_of_head {budget : Nat} {h : Head} {head body : Bytes} (hs : h.Spelling head)
    (hbody : ∀ fuel rest, body.length ≤ fuel →
      skipContent fuel budget h.content (body ++ rest) = some rest) :
    Skipped budget (head ++ body) := by
  intro fuel count rest hfuel
  have hpos := hs.length_pos
  rw [List.length_append] at hfuel
  rw [List.append_assoc, skipMany_of_read (Head.read_of_spelling hs _),
    hbody fuel rest (by omega), Option.bind_some]

/-- A value is read over if it nests less deep than the budget. -/
theorem WellFormed.skipped {depth budget : Nat} {b : Bytes} (hb : WellFormed depth b)
    (hdepth : depth < budget) : Skipped budget b := by
  induction hb generalizing budget with
  | bytes hs hc hn =>
    refine skipped_of_head hs fun fuel rest _ => ?_
    rw [hc, skipContent]
    exact drop?_eq_some_iff.2 ⟨_, hn, rfl⟩
  | extension hs hc hn =>
    refine skipped_of_head hs fun fuel rest _ => ?_
    rw [hc, skipContent, if_neg (by omega)]
    exact drop?_eq_some_iff.2 ⟨_, hn, rfl⟩
  | values hs hc hitems ih =>
    refine skipped_of_head hs fun fuel rest hfuel => ?_
    rw [hc, skipContent, if_neg (by omega)]
    exact skipMany_flatten (fun i hi => ⟨(hitems i hi).length_pos, ih i hi (by omega)⟩) hfuel rest

/-- What is read over is values, nested less deep than the budget. -/
theorem exists_of_skipMany {fuel budget count : Nat} {bytes rest : Bytes}
    (hskip : skipMany fuel budget count bytes = some rest) :
    ∃ items : List Bytes, items.length = count ∧ bytes = items.flatten ++ rest ∧
      ∀ item ∈ items, WellFormed (budget - 1) item := by
  induction fuel generalizing budget count bytes rest with
  | zero =>
    cases count with
    | zero => exact ⟨[], rfl, by simpa [skipMany] using hskip, by simp⟩
    | succ count => simp [skipMany] at hskip
  | succ fuel ih =>
    cases count with
    | zero => exact ⟨[], rfl, by simpa [skipMany] using hskip, by simp⟩
    | succ count =>
      rcases hread : Head.read bytes with _ | ⟨h, body⟩
      · rw [skipMany_none hread] at hskip
        cases hskip
      rw [skipMany_of_read hread] at hskip
      obtain ⟨after, hcontent, hafter⟩ := Option.bind_eq_some_iff.1 hskip
      obtain ⟨items, hlen, rfl, hitems⟩ := ih hafter
      obtain ⟨head, hs, rfl⟩ := Head.spelling_of_read hread
      suffices ∃ b, WellFormed (budget - 1) (head ++ b) ∧ body = b ++ (items.flatten ++ rest) by
        obtain ⟨b, hb, rfl⟩ := this
        refine ⟨(head ++ b) :: items, by rw [List.length_cons, hlen], by simp, ?_⟩
        exact List.forall_mem_cons.2 ⟨hb, hitems⟩
      cases hc : h.content with
      | bytes n =>
        rw [hc, skipContent] at hcontent
        obtain ⟨front, hn, rfl⟩ := drop?_eq_some_iff.1 hcontent
        exact ⟨front, .bytes hs hc hn, rfl⟩
      | extension n =>
        rw [hc, skipContent] at hcontent
        by_cases hb : budget ≤ 1
        · rw [if_pos hb] at hcontent
          cases hcontent
        rw [if_neg hb] at hcontent
        obtain ⟨front, hn, rfl⟩ := drop?_eq_some_iff.1 hcontent
        obtain ⟨depth, rfl⟩ : ∃ n, budget = n + 2 := ⟨budget - 2, by omega⟩
        exact ⟨front, .extension hs hc hn, rfl⟩
      | values n =>
        rw [hc, skipContent] at hcontent
        by_cases hb : budget ≤ 1
        · rw [if_pos hb] at hcontent
          cases hcontent
        rw [if_neg hb] at hcontent
        obtain ⟨inner, rfl, rfl, hinner⟩ := ih hcontent
        obtain ⟨depth, rfl⟩ : ∃ n, budget = n + 2 := ⟨budget - 2, by omega⟩
        exact ⟨inner.flatten, .values hs hc hinner, rfl⟩

/-- Skipping reads over one value, of those that nest less deep than the budget. -/
theorem skip_eq_some_iff {budget : Nat} (hbudget : 0 < budget) {bytes rest : Bytes} :
    skip budget bytes = some rest ↔ ∃ b, WellFormed (budget - 1) b ∧ bytes = b ++ rest := by
  constructor
  · intro h
    obtain ⟨items, hlen, rfl, hitems⟩ := exists_of_skipMany h
    obtain ⟨b, rfl⟩ := List.length_eq_one_iff.1 hlen
    exact ⟨b, hitems b List.mem_cons_self, by simp⟩
  · rintro ⟨b, hb, rfl⟩
    have hpos := hb.length_pos
    obtain ⟨fuel, hfuel⟩ : ∃ n, (b ++ rest).length = n + 1 := ⟨(b ++ rest).length - 1, by
      rw [List.length_append]
      omega⟩
    rw [skip, hfuel, hb.skipped (by omega) fuel 0 rest (by rw [← hfuel, List.length_append]; omega),
      skipMany]

/-- No value is the beginning of another one, so a value says itself where it ends. -/
theorem WellFormed.append_inj {depth depth' : Nat} {b b' rest rest' : Bytes}
    (hb : WellFormed depth b) (hb' : WellFormed depth' b') (h : b ++ rest = b' ++ rest') :
    b = b' ∧ rest = rest' := by
  have hskip : skip (max depth depth' + 1) (b ++ rest) = some rest :=
    (skip_eq_some_iff (by omega)).2 ⟨b, hb.mono (by omega), rfl⟩
  have hskip' : skip (max depth depth' + 1) (b ++ rest) = some rest' :=
    (skip_eq_some_iff (by omega)).2 ⟨b', hb'.mono (by omega), h⟩
  obtain rfl : rest = rest' := Option.some.inj (hskip.symm.trans hskip')
  exact ⟨List.append_cancel_right h, rfl⟩

end KeyedStream.MsgPack
