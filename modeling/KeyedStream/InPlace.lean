import KeyedStream.Error

/-!
# Procedures

What is done to a state in place, by a procedure of several steps. Each step may change the state or
fail, and what was changed before a failure is not taken back. A step may also have effects that are
not on the state; a procedure is written once for all such effects, and runs without any where only
the state matters (`InPlace`).
-/

namespace KeyedStream

/-- A procedure on a state, whose steps may have effects `m` of their own. The changes before a
failure stay. -/
abbrev InPlaceT (m : Type → Type) (σ α : Type) := ExceptT Error (StateT σ m) α

namespace InPlaceT

variable {m : Type → Type} {σ α β : Type}

/-- What a procedure comes to on a state, and the state that it leaves. -/
def on (p : InPlaceT m σ α) (s : σ) : m (Except Error α × σ) := p.run.run s

variable [Monad m]

@[simp] theorem on_pure (a : α) (s : σ) : on (pure a : InPlaceT m σ α) s = pure (.ok a, s) := rfl

@[simp] theorem on_liftExcept (x : Except Error α) (s : σ) :
    on (liftExcept x : InPlaceT m σ α) s = pure (x, s) := by
  cases x <;> rfl

@[simp] theorem on_bind (p : InPlaceT m σ α) (f : α → InPlaceT m σ β) (s : σ) :
    on (p >>= f) s = p.on s >>= fun
      | (.ok a, s) => (f a).on s
      | (.error e, s) => pure (.error e, s) := by
  rw [on, ExceptT.run_bind, StateT.run_bind]
  refine bind_congr fun r => ?_
  obtain ⟨_ | _, _⟩ := r <;> rfl

variable [LawfulMonad m]

/-- A step that does not fail. -/
theorem on_lift (x : StateT σ m α) (s : σ) :
    on (ExceptT.lift x : InPlaceT m σ α) s = (fun r => (.ok r.1, r.2)) <$> x.run s := by
  rw [on, ExceptT.run_lift, StateT.run_map]

@[simp] theorem on_get (s : σ) : on (get : InPlaceT m σ σ) s = pure (.ok s, s) :=
  (on_lift get s).trans (by rw [StateT.run_get, map_pure])

@[simp] theorem on_modify (f : σ → σ) (s : σ) :
    on (modify f : InPlaceT m σ Unit) s = pure (.ok (), f s) :=
  (on_lift (modify f) s).trans (by rw [StateT.run_modify, map_pure])

/-- An effect that is not on the state. -/
@[simp] theorem on_liftM (x : m α) (s : σ) :
    on (liftM x : InPlaceT m σ α) s = x >>= fun a => pure (.ok a, s) :=
  (on_lift (StateT.lift x) s).trans (by rw [StateT.run_lift, map_bind]; simp)

end InPlaceT

/-- A procedure without effects but those on the state. -/
abbrev InPlace (σ α : Type) := InPlaceT Id σ α

namespace InPlace

variable {σ α β : Type}

/-- What a procedure comes to on a state, and the state that it leaves. -/
def on (p : InPlace σ α) (s : σ) : Except Error α × σ := (InPlaceT.on p s).run

/-- The state that a procedure leaves if it does not fail. -/
def exec (p : InPlace σ α) (s : σ) : Except Error σ :=
  match p.on s with
  | (.ok _, s) => .ok s
  | (.error e, _) => .error e

@[simp] theorem on_pure (a : α) (s : σ) : on (pure a) s = (.ok a, s) := rfl

@[simp] theorem on_get (s : σ) : on get s = (.ok s, s) := rfl

@[simp] theorem on_modify (f : σ → σ) (s : σ) : on (modify f) s = (.ok (), f s) := rfl

@[simp] theorem on_liftExcept (x : Except Error α) (s : σ) : on (liftExcept x) s = (x, s) := by
  cases x <;> rfl

@[simp] theorem on_bind (p : InPlace σ α) (f : α → InPlace σ β) (s : σ) :
    on (p >>= f) s =
      match p.on s with
      | (.ok a, s) => (f a).on s
      | (.error e, s) => (.error e, s) := by
  rw [on, InPlaceT.on_bind, Id.run_bind, on]
  obtain ⟨_ | _, _⟩ := (InPlaceT.on p s).run <;> rfl

end InPlace

end KeyedStream
